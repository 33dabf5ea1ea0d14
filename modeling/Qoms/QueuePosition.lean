import Qoms.QueueRace
import Qoms.Ranking

/-!
# Positions in the queue

`buildQueueState` tells a user the number of active entries of the zone whose `joined_at` is
not after the entry's own, as the driver returned it : a date in milliseconds, where the
column has microseconds. So an entry does not count itself unless its `joined_at` is a whole
number of milliseconds, and counts another entry of the same time. With these two exceptions
ruled out its position is its place in the line (`position_iff`).

The position of an entry goes up when an entry is committed whose transaction started before
the entry joined, as far as its date tells. `position_steadily_iff` says that no position ever
goes up just when no commit of the run is such a one; `lateCommit` is a run with one.
-/

set_option autoImplicit false

namespace Qoms.QueueService

/-! ## The place in the line -/

/-- The active entries of the zone. -/
def line (entries : List QueueEntryEntity) (zoneId : Uuid) : List QueueEntryEntity :=
  entries.filter (activeIn zoneId)

/-- The position counts the line up to the date of the entry. -/
theorem position_eq_upTo (entries : List QueueEntryEntity) (zone : ZoneSummary)
    (entry : QueueEntryEntity) (knownQueueLength : Option ℕ) :
    (buildQueueState entries zone entry knownQueueLength).position =
      upTo (·.joinedAt) (line entries entry.zoneId) (entry.joinedDate * 1000) := by
  rw [upTo, line, List.countP_filter]
  refine List.countP_congr fun e _ => ?_
  simp only [activeIn, Bool.and_eq_true, beq_iff_eq, decide_eq_true_eq]
  tauto

/-- The date is not after the time it was read from. -/
theorem joinedDate_le (e : QueueEntryEntity) : e.joinedDate * 1000 ≤ e.joinedAt := by
  unfold QueueEntryEntity.joinedDate
  omega

theorem joinedDate_eq_iff (e : QueueEntryEntity) :
    e.joinedDate * 1000 = e.joinedAt ↔ e.joinedAt % 1000 = 0 := by
  unfold QueueEntryEntity.joinedDate
  omega

theorem nodup_line {db : QueueDb} (hkeyed : db.Keyed) (zoneId : Uuid) :
    (line db.entries zoneId).Nodup :=
  (List.Nodup.of_map _ hkeyed.nodup).filter _

/-- The tables of a run are keyed. -/
theorem keyed_run (as : List (ℕ × Action)) : (run (Shared.step act) init as).db.Keyed :=
  (Shared.Safe.run (fun _ => True) QueueDb.Grows
    (fun a db r _ hkeyed hsound => (act_moves a db r).guarantees hkeyed hsound)
    (fun _ _ _ hgrows hsound => hsound.grows hgrows) safe_init fun _ _ => trivial).store

/-- The entries of a line in the order in which they joined. -/
structure InJoiningOrder (joined line : List QueueEntryEntity) : Prop where
  perm : joined.Perm line
  sorted : joined.Pairwise fun a b => a.joinedAt < b.joinedAt

theorem position_eq_iff {db : QueueDb} (hkeyed : db.Keyed) (zone : ZoneSummary)
    (knownQueueLength : Option ℕ) {zoneId : Uuid} {e : QueueEntryEntity}
    (he : e ∈ line db.entries zoneId) :
    (buildQueueState db.entries zone e knownQueueLength).position =
        1 + earlier (·.joinedAt) (line db.entries zoneId) e.joinedAt ↔
      e.joinedAt % 1000 = 0 ∧
        ∀ x ∈ line db.entries zoneId, x.joinedAt = e.joinedAt → x = e := by
  have hz : e.zoneId = zoneId := by
    have hactive := (List.mem_filter.mp he).2
    simp only [activeIn, Bool.and_eq_true, beq_iff_eq] at hactive
    exact hactive.2
  rw [position_eq_upTo, hz, upTo_eq_iff (joinedDate_le e), joinedDate_eq_iff,
    atTime_eq_one_iff (nodup_line hkeyed zoneId) he]

/-- Where no two entries joined at the same time, the positions are one, two, … just when all
joined at whole milliseconds. -/
theorem positions_eq_range_iff {db : QueueDb} (hkeyed : db.Keyed) (zone : ZoneSummary)
    (knownQueueLength : Option ℕ) {zoneId : Uuid} {joined : List QueueEntryEntity}
    (h : InJoiningOrder joined (line db.entries zoneId)) :
    joined.map (fun e => (buildQueueState db.entries zone e knownQueueLength).position) =
        List.range' 1 joined.length ↔ ∀ e ∈ joined, e.joinedAt % 1000 = 0 := by
  have hplaces : List.range' 1 joined.length = joined.map fun e =>
      1 + earlier (·.joinedAt) (line db.entries zoneId) e.joinedAt := by
    rw [List.range'_eq_map_range, ← map_earlier_eq_range h.sorted, List.map_map]
    refine List.map_congr_left fun e _ => ?_
    rw [Function.comp_apply, earlier, earlier, h.perm.countP_eq]
  have hnodup : (joined.map (·.joinedAt)).Nodup :=
    List.pairwise_map.mpr (h.sorted.imp fun hlt => hlt.ne)
  have hdistinct : ∀ e ∈ joined, ∀ x ∈ line db.entries zoneId,
      x.joinedAt = e.joinedAt → x = e := fun e he x hx htime =>
    List.inj_on_of_nodup_map hnodup (h.perm.mem_iff.mpr hx) he htime
  rw [hplaces, List.map_inj_left]
  refine forall₂_congr fun e he => ?_
  rw [position_eq_iff hkeyed zone knownQueueLength (h.perm.mem_iff.mp he)]
  exact and_iff_left (hdistinct e he)

/-- In every reachable state the position of an active entry is one more than the number of
active entries of its zone that joined before, exactly when it joined at a whole millisecond
and no other active entry of the zone joined at the same time. If the entries of a zone joined
at different times, their positions in joining order are one, two, and so on, exactly when
they all joined at whole milliseconds. -/
theorem position_iff (as : List (ℕ × Action)) (zone : ZoneSummary)
    (knownQueueLength : Option ℕ) (zoneId : Uuid) :
    let entries := (run (Shared.step act) init as).db.entries
    (∀ e ∈ line entries zoneId,
      (buildQueueState entries zone e knownQueueLength).position =
          1 + earlier (·.joinedAt) (line entries zoneId) e.joinedAt ↔
        e.joinedAt % 1000 = 0 ∧ ∀ x ∈ line entries zoneId, x.joinedAt = e.joinedAt → x = e) ∧
    ∀ joined, InJoiningOrder joined (line entries zoneId) →
      (joined.map (fun e => (buildQueueState entries zone e knownQueueLength).position) =
          List.range' 1 joined.length ↔ ∀ e ∈ joined, e.joinedAt % 1000 = 0) :=
  ⟨fun _ he => position_eq_iff (keyed_run as) zone knownQueueLength he,
    fun _ h => positions_eq_range_iff (keyed_run as) zone knownQueueLength h⟩

/-- A user joins an empty queue, at no whole millisecond. -/
def firstInLine : List (ℕ × Action) :=
  [(0, .join 1 (some ⟨7, .student⟩) diningEnv), (0, .lookup 0), (0, .begin 1760000000000500),
    (0, .commit 1760000000001)]

/-- The first in line is told the position zero. -/
theorem firstInLine_zero : ∃ zone e,
    line (run (Shared.step act) init firstInLine).db.entries 1 = [e] ∧
    earlier (·.joinedAt) (line (run (Shared.step act) init firstInLine).db.entries 1)
      e.joinedAt = 0 ∧
    (buildQueueState (run (Shared.step act) init firstInLine).db.entries zone e none).position =
      0 :=
  ⟨⟨1, .diningZone, .open, 10, none⟩, ⟨1, 1, 7, .active, 1760000000000500, none⟩, by decide,
    by decide, by decide⟩

/-! ## Positions over time -/

/-- If the step is a commit, its transaction started after each active entry of the zone
joined, as far as their dates tell. -/
def ComesLast : Action → QueueDb → Request → Prop
  | .commit _, db, .begun join _ _ _ joinedAt =>
    ∀ e ∈ line db.entries join.zoneId, e.joinedDate * 1000 < joinedAt
  | _, _, _ => True

theorem comesLast_of_not_enabled {a : Action} {db : QueueDb} {r : Request}
    (h : ¬Enabled a r) : ComesLast a db r := by
  cases a <;> cases r <;> first | trivial | exact absurd trivial h

/-- No entry that is active in both tables has a higher position in the later. -/
def MovesUp (zone : ZoneSummary) (knownQueueLength : Option ℕ) (db db' : QueueDb) : Prop :=
  ∀ e ∈ db.entries, e.status = .active → ∀ e' ∈ db'.entries, e'.id = e.id → e'.status = .active →
    (buildQueueState db'.entries zone e' knownQueueLength).position ≤
      (buildQueueState db.entries zone e knownQueueLength).position

/-- The position counts this entry. -/
def countedFor (zoneId : Uuid) (date : ℤ) (e : QueueEntryEntity) : Bool :=
  activeIn zoneId e && decide (e.joinedAt ≤ date)

theorem position_eq_countP (entries : List QueueEntryEntity) (zone : ZoneSummary)
    (entry : QueueEntryEntity) (knownQueueLength : Option ℕ) :
    (buildQueueState entries zone entry knownQueueLength).position =
      entries.countP (countedFor entry.zoneId (entry.joinedDate * 1000)) := by
  refine List.countP_congr fun e _ => ?_
  simp only [countedFor, activeIn, Bool.and_eq_true, beq_iff_eq]
  tauto

theorem countedFor_of_ages {zoneId : Uuid} {date : ℤ} (a b : QueueEntryEntity) (h : Ages a b)
    (hb : countedFor zoneId date b = true) : countedFor zoneId date a = true := by
  rw [countedFor, Bool.and_eq_true, decide_eq_true_eq] at hb ⊢
  refine ⟨activeIn_of_ages a b h hb.1, ?_⟩
  rw [h.2.2.2.1]
  exact hb.2

theorem countP_countedFor_insert (entries : List QueueEntryEntity) (join : Join) (id zoneId : Uuid)
    (joinedAt date : ℤ) : (entries ++ [join.entry id joinedAt]).countP (countedFor zoneId date) =
      entries.countP (countedFor zoneId date) +
        if join.zoneId = zoneId ∧ joinedAt ≤ date then 1 else 0 := by
  simp [countedFor, activeIn, Join.entry, List.countP_append, List.countP_singleton]

section

variable {zone : ZoneSummary} {knownQueueLength : Option ℕ} {db db' db'' : QueueDb}

/-- Of two versions of an entry the count is by the same zone and date. -/
theorem position_of_ages {e e' : QueueEntryEntity} (h : Ages e e')
    (entries : List QueueEntryEntity) :
    (buildQueueState entries zone e' knownQueueLength).position =
      entries.countP (countedFor e.zoneId (e.joinedDate * 1000)) := by
  obtain ⟨-, hz, -, htime, -⟩ := h
  rw [position_eq_countP, QueueEntryEntity.joinedDate, QueueEntryEntity.joinedDate, hz, htime]

/-- No entry moves back while the same rows are active or fewer. -/
theorem movesUp_of_countP_le (hkeyed : db.Keyed) (hgrows : db.Grows db')
    (hle : ∀ zoneId date, db'.entries.countP (countedFor zoneId date) ≤
      db.entries.countP (countedFor zoneId date)) : MovesUp zone knownQueueLength db db' := by
  intro e he _ e' he' hid _
  rw [position_of_ages (hgrows.ages_of_id (fun _ _ h => h.1) hkeyed he he' hid),
    position_of_ages (Ages.refl e)]
  exact hle _ _

/-- An insert moves no entry back just when it comes last. -/
theorem movesUp_insert_iff (hkeyed : db.Keyed) (join : Join) (count : ℕ) (now joinedAt : ℤ) :
    MovesUp zone knownQueueLength db (insertEntry db join count ⟨now, joinedAt⟩).2 ↔
      ∀ e ∈ line db.entries join.zoneId, e.joinedDate * 1000 < joinedAt := by
  have hactive : ∀ e ∈ db.entries, e ∈ line db.entries join.zoneId ↔
      e.status = .active ∧ join.zoneId = e.zoneId := fun e he => by
    rw [line, List.mem_filter, activeIn, Bool.and_eq_true, beq_iff_eq, beq_iff_eq]
    exact ⟨fun h => ⟨h.2.1, h.2.2.symm⟩, fun h => ⟨he, h.1, h.2.symm⟩⟩
  constructor
  · intro h e he
    have hmem := (List.mem_filter.mp he).1
    obtain ⟨hs, hz⟩ := (hactive e hmem).mp he
    have hle := h e hmem hs e (List.mem_append_left _ hmem) rfl hs
    rw [position_of_ages (Ages.refl e), position_of_ages (Ages.refl e), insertEntry_entries,
      countP_countedFor_insert] at hle
    split_ifs at hle with hcounted
    · omega
    · exact lt_of_not_ge fun hge => hcounted ⟨hz, hge⟩
  · intro h e he hs e' he' hid _
    rw [insertEntry_entries, List.mem_append, List.mem_singleton] at he'
    rcases he' with he' | rfl
    · obtain rfl : e' = e := hkeyed.eq_of_id_eq he' he hid
      have hnot : ¬(join.zoneId = e'.zoneId ∧ joinedAt ≤ e'.joinedDate * 1000) := fun hcounted =>
        (h e' ((hactive e' he).mpr ⟨hs, hcounted.1⟩)).not_ge hcounted.2
      rw [position_of_ages (Ages.refl e'), position_of_ages (Ages.refl e'), insertEntry_entries,
        countP_countedFor_insert, if_neg hnot, Nat.add_zero]
    · -- the new row has an id that no old row has
      have hlt : e.id < db.uuids := hkeyed.fresh e he
      have hid' : db.uuids + 1 = e.id := hid
      exact absurd (hid'.trans_lt hlt) (Nat.le_succ _).not_gt

/-- One step moves no entry back just when what it commits comes last. -/
theorem movesUp_act_iff (a : Action) {r : Request} (hkeyed : db.Keyed) (hsound : r.Sound db) :
    MovesUp zone knownQueueLength db (act a db r).1 ↔ ComesLast a db r := by
  have hmoves := act_moves a db r
  have hgrows := (hmoves.guarantees hkeyed hsound).rely
  generalize (act a db r).1 = db' at hmoves hgrows ⊢
  generalize (act a db r).2 = r' at hmoves hgrows
  have hsame : MovesUp zone knownQueueLength db db :=
    movesUp_of_countP_le hkeyed (Grows.refl Ages.refl _ _) fun _ _ => le_rfl
  cases hmoves with
  | stay hnot => exact iff_of_true hsame (comesLast_of_not_enabled hnot)
  | refuse => exact iff_of_true hsame (by cases a <;> trivial)
  | commit now join count countSeen lookupSeen joinedAt =>
    exact movesUp_insert_iff hkeyed join count now joinedAt
  | save clock entry nextCount =>
    refine iff_of_true (movesUp_of_countP_le hkeyed hgrows fun _ _ => ?_) trivial
    exact countP_saveRow_le countedFor_of_ages (hsound.1 clock.now)
  | _ => exact iff_of_true hsame trivial

theorem MovesUp.trans (hkeyed : db'.Keyed) (hgrows : db.Grows db') (hgrows' : db'.Grows db'')
    (h : MovesUp zone knownQueueLength db db')
    (h' : MovesUp zone knownQueueLength db' db'') : MovesUp zone knownQueueLength db db'' := by
  intro e he hs e'' he'' hid hs''
  obtain ⟨e', he', hages⟩ := hgrows.later.exists_version he
  have hages' := hgrows'.ages_of_id (fun _ _ h => h.1) hkeyed he' he'' (hid.trans hages.1)
  have hs' : e'.status = .active := hages'.2.2.2.2 hs''
  exact (h' e' he' hs' e'' he'' (hid.trans hages.1) hs'').trans
    (h e he hs e' he' hages.1.symm hs')

end

/-- In a run of concurrent requests no entry that stays active is ever told a higher position
than before, exactly when each commit of the run comes last : its transaction started after
each active entry of the zone joined, as far as the dates of these tell. -/
theorem position_steadily_iff (as : List (ℕ × Action)) (zone : ZoneSummary)
    (knownQueueLength : Option ℕ) :
    Steadily (Shared.step act) init as
        (fun s t => MovesUp zone knownQueueLength s.db t.db) ↔
      EachStep (Shared.step act) init as fun s pa => ComesLast pa.2 s.db (s.requests pa.1) := by
  have hinv : ∀ (s : System) (pa : ℕ × Action), True →
      s.Safe QueueDb.Keyed (fun db r => r.Sound db) →
        (Shared.step act s pa).Safe QueueDb.Keyed fun db r => r.Sound db := fun _ _ _ h =>
    h.step ((act_moves _ _ _).guarantees h.store (h.sound _))
      fun _ _ _ hgrows hsound => hsound.grows hgrows
  -- the tables only grow, so an entry has a version at each moment between
  have hgrown : Steadily (Shared.step act) init as fun s t => t.db.Keyed ∧ s.db.Grows t.db :=
    steadily_of_step (fun _ => True) hinv (fun s h => ⟨h.store, Grows.refl Ages.refl _ _⟩)
      (fun _ _ _ h h' => ⟨h'.1, Grows.trans (fun _ _ h => h.1) Ages.trans h.2 h'.2⟩)
      (fun _ _ _ h =>
        have hstep := (act_moves _ _ _).guarantees h.store (h.sound _)
        ⟨hstep.store, hstep.rely⟩) safe_init fun _ _ => trivial
  have hboth : Steadily (Shared.step act) init as (fun s t => (t.db.Keyed ∧ s.db.Grows t.db) ∧
      MovesUp zone knownQueueLength s.db t.db) ↔
      EachStep (Shared.step act) init as fun s pa => ComesLast pa.2 s.db (s.requests pa.1) :=
    steadily_iff_eachStep (fun _ => True) hinv
      (fun s h => ⟨⟨h.store, Grows.refl Ages.refl _ _⟩,
        movesUp_of_countP_le h.store (Grows.refl Ages.refl _ _) fun _ _ => le_rfl⟩)
      (fun _ _ _ h h' => ⟨⟨h'.1.1, Grows.trans (fun _ _ h => h.1) Ages.trans h.1.2 h'.1.2⟩,
        h.2.trans h.1.1 h.1.2 h'.1.2 h'.2⟩)
      (fun s pa _ h => by
        have hstep := (act_moves pa.2 s.db (s.requests pa.1)).guarantees h.store (h.sound pa.1)
        rw [← movesUp_act_iff pa.2 h.store (h.sound pa.1)]
        exact and_iff_right ⟨hstep.store, hstep.rely⟩) safe_init fun _ _ => trivial
  rw [← hboth]
  exact ⟨fun h pre mid hpre hmid => ⟨hgrown pre mid hpre hmid, h pre mid hpre hmid⟩,
    fun h pre mid hpre hmid => (h pre mid hpre hmid).2⟩

/-- A transaction that started before another user joined commits after it. -/
def lateCommit : List (ℕ × Action) :=
  [(0, .join 1 (some ⟨7, .student⟩) diningEnv), (0, .lookup 0),
    (1, .join 1 (some ⟨8, .student⟩) diningEnv), (1, .lookup 0),
    (0, .begin 1760000000000000), (1, .begin 1760000000001000), (1, .commit 1760000000002),
    (0, .commit 1760000000003)]

/-- The user who was the first in line is the second. -/
theorem lateCommit_not_steadily : ∃ zone, ¬Steadily (Shared.step act) init lateCommit
    fun s t => MovesUp zone none s.db t.db := by
  refine ⟨⟨1, .diningZone, .open, 10, none⟩, fun h => ?_⟩
  have hle := h (lateCommit.take 7) lateCommit (List.take_prefix _ _) (List.prefix_refl _)
    ⟨1, 1, 8, .active, 1760000000001000, none⟩ (by decide) rfl
    ⟨1, 1, 8, .active, 1760000000001000, none⟩ (by decide) rfl rfl
  exact absurd hle (by decide)

end Qoms.QueueService
