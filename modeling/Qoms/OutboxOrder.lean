import Qoms.Log
import Qoms.OutboxFlush
import Qoms.Run
import Mathlib.Data.List.Nodup

/-!
# The order of publication

One run of `flushOutbox` at a time, over a fixed set of rows. The loop goes on after a
failed send, and the failed row is polled again in a later round, behind newer rows of the
same entity that were accepted meanwhile (`secondFirst_reorders`).

A row that is not pending any more and was not accepted is out for good, once the current
round has passed it. So as long as no row is accepted for the first time while an older
row of its entity is still pending and not accepted (`NoneLeftBehind`), an older row is
either accepted before a newer one or never (`Ordered`), and per entity the topic follows
the order of creation (`creationOrder_of_noneLeftBehind`).
-/

set_option autoImplicit false

namespace Qoms

variable {K P : Type}

/-! ## Orders -/

/-- A row of the same entity, created strictly before. -/
def OutboxEvent.Older (row row' : OutboxEvent K P) : Prop :=
  row.entityId = row'.entityId ∧ row.createdAt < row'.createdAt

/-- Of two accepted rows of one entity the older one was accepted first. -/
def CreationOrder (db : OutboxStore K P) : Prop :=
  ∀ row ∈ db.rows, ∀ row' ∈ db.rows, row.Older row' → row.id ∈ db.accepted →
    row'.id ∈ db.accepted → db.accepted.idxOf row.id < db.accepted.idxOf row'.id

/-- If the item was not accepted yet, every older row of its entity that is still pending
was. -/
def OutboxStore.LeavesNone (db : OutboxStore K P) (item : OutboxEvent K P) : Prop :=
  item.id ∉ db.accepted →
    ∀ row ∈ db.rows, row.Older item → row.pending = true → row.id ∈ db.accepted

instance [DecidableEq K] (row row' : OutboxEvent K P) : Decidable (row.Older row') :=
  inferInstanceAs (Decidable (_ ∧ _))

instance [DecidableEq K] (db : OutboxStore K P) (item : OutboxEvent K P) :
    Decidable (db.LeavesNone item) :=
  inferInstanceAs (Decidable (_ → ∀ _ ∈ _, _))

/-- No send is accepted while an older row of the entity is left behind. -/
def NoneLeftBehind (s : OutboxStore K P × Flush K P) (a : FlushStep) : Prop :=
  match a, s.2 with
  | .send outcome, .items (item :: _) => outcome.accepted = true → s.1.LeavesNone item
  | _, _ => True

/-! ## The invariant of a round -/

/-- The rows have distinct ids; the items still to come are rows as they were created, the
oldest first; an item about to be marked was sent, and the attempts that were read are
still the row's. -/
structure InRound (db : OutboxStore K P) (flush : Flush K P) : Prop where
  nodup : (db.rows.map (·.id)).Nodup
  loaded : ∀ item ∈ flush.rest, ∀ row ∈ db.rows, row.id = item.id →
    row.entityId = item.entityId ∧ row.createdAt = item.createdAt
  sorted : flush.rest.Pairwise fun item item' => item.createdAt ≤ item'.createdAt
  sent : flush.Sent db
  read : ∀ item items message attempts, flush = .read item items message attempts →
    ∀ row ∈ db.rows, row.id = item.id → row.attempts ≤ attempts

/-- The row was not accepted, is not pending, and is not among the items still to come. -/
structure Dead (db : OutboxStore K P) (flush : Flush K P) (row : OutboxEvent K P) : Prop where
  notMem : row.id ∉ db.accepted
  pending : row.pending = false
  passed : ∀ item ∈ flush.rest, item.id ≠ row.id

/-- A row that is older than an accepted one of its entity was accepted before it, or is
dead. -/
def Ordered (db : OutboxStore K P) (flush : Flush K P) : Prop :=
  ∀ row ∈ db.rows, ∀ row' ∈ db.rows, row.Older row' → row'.id ∈ db.accepted →
    (row.id ∈ db.accepted ∧ db.accepted.idxOf row.id < db.accepted.idxOf row'.id) ∨
      Dead db flush row

theorem Ordered.creationOrder {db : OutboxStore K P} {flush : Flush K P}
    (h : Ordered db flush) : CreationOrder db := by
  intro row hrow row' hrow' holder hmem hmem'
  rcases h row hrow row' hrow' holder hmem' with ⟨-, hlt⟩ | hdead
  · exact hlt
  · exact absurd hmem hdead.notMem

/-! ## One step -/

/-- A later version of a row : the same event, and out if it was out. -/
structure Outlasts (db : OutboxStore K P) (old row : OutboxEvent K P) : Prop where
  id : row.id = old.id
  entityId : row.entityId = old.entityId
  createdAt : row.createdAt = old.createdAt
  pending : old.id ∉ db.accepted → old.pending = false → row.pending = false

section

variable {db db' : OutboxStore K P} {flush flush' : Flush K P}

theorem Outlasts.refl (row : OutboxEvent K P) : Outlasts db row row :=
  ⟨rfl, rfl, rfl, fun _ h => h⟩

/-- A step of a round changes no event, and brings no row back that is out. -/
theorem FlushMoves.outlasts {r : OutboxStore K P × Flush K P} (h : FlushMoves db flush r)
    (hround : InRound db flush) : ∀ row ∈ r.1.rows, ∃ old ∈ db.rows, Outlasts db old row := by
  have hmark : ∀ item outcome now, item ∈ db.accepted →
      ∀ row ∈ (db.update (markOutboxPublished item now db.rows) outcome).rows,
        ∃ old ∈ db.rows, Outlasts db old row := by
    intro item outcome now hitem row hrow
    rcases mem_update db _ outcome hrow with hrow | hrow
    · obtain ⟨old, hold, rfl | ⟨rfl, rfl⟩⟩ := mem_markOutboxPublished hrow
      · exact ⟨row, hold, Outlasts.refl row⟩
      · exact ⟨old, hold, rfl, rfl, rfl, fun hnot => absurd hitem hnot⟩
    · exact ⟨row, hrow, Outlasts.refl row⟩
  cases h with
  | marked item items outcome now => exact hmark _ _ _ (hround.sent item items rfl)
  | markFailed item items outcome now message =>
    exact hmark _ _ _ (hround.sent item items rfl)
  | written item items rest message attempts outcome =>
    intro row hrow
    rcases mem_update db _ outcome hrow with hrow | hrow
    · obtain ⟨old, hold, rfl | ⟨hid, rfl⟩⟩ := mem_writeAttempts hrow
      · exact ⟨row, hold, Outlasts.refl row⟩
      · refine ⟨old, hold, rfl, rfl, rfl, fun _ hout => ?_⟩
        have hle := hround.read item items message attempts rfl old hold hid
        simp only [OutboxEvent.pending, Bool.and_eq_false_iff, decide_eq_false_iff_not] at hout ⊢
        rcases hout with hpub | hmany
        · exact Or.inl hpub
        · exact Or.inr (by omega)
    · exact ⟨row, hrow, Outlasts.refl row⟩
  | sent => exact fun row hrow => ⟨row, by simpa using hrow, Outlasts.refl row⟩
  | sendFailed => exact fun row hrow => ⟨row, by simpa using hrow, Outlasts.refl row⟩
  | _ => exact fun row hrow => ⟨row, hrow, Outlasts.refl row⟩

/-- The items a step leaves are those that were left, those behind the sent one, or those
of the poll. -/
theorem FlushMoves.rest {r : OutboxStore K P × Flush K P} (h : FlushMoves db flush r) :
    r.2.rest.Sublist flush.rest ∨ ∃ rank, r.1 = db ∧
      r.2 = .items (getPendingOutboxEvents rank 25 db.rows) := by
  cases h with
  | stay => exact Or.inl (List.Sublist.refl _)
  | stop => exact Or.inl (List.nil_sublist _)
  | poll rank => exact Or.inr ⟨rank, rfl, rfl⟩
  | sent item items => exact Or.inl (List.sublist_cons_self item items)
  | sendFailed item items => exact Or.inl (List.sublist_cons_self item items)
  | written item items rest message attempts outcome hrest =>
    rcases hrest with rfl | rfl
    · exact Or.inl (List.Sublist.refl _)
    · exact Or.inl (List.nil_sublist _)
  | _ => exact Or.inl (List.Sublist.refl _)

theorem nodup_update {rows : List (OutboxEvent K P)}
    (hrows : rows.map (·.id) = db.rows.map (·.id)) (hnodup : (db.rows.map (·.id)).Nodup)
    (outcome : CallOutcome) : ((db.update rows outcome).rows.map (·.id)).Nodup := by
  unfold OutboxStore.update
  split_ifs
  · exact hrows ▸ hnodup
  · exact hnodup

theorem FlushMoves.nodup {r : OutboxStore K P × Flush K P} (h : FlushMoves db flush r)
    (hnodup : (db.rows.map (·.id)).Nodup) : (r.1.rows.map (·.id)).Nodup := by
  cases h with
  | sent => simpa using hnodup
  | sendFailed => simpa using hnodup
  | marked => exact nodup_update (map_id_markOutboxPublished _ _ _) hnodup _
  | markFailed => exact nodup_update (map_id_markOutboxPublished _ _ _) hnodup _
  | written => exact nodup_update (map_id_writeAttempts _ _ _ _) hnodup _
  | _ => exact hnodup

theorem FlushMoves.keeps_read {r : OutboxStore K P × Flush K P} (h : FlushMoves db flush r)
    (hround : InRound db flush) : ∀ item items message attempts,
      r.2 = .read item items message attempts →
        ∀ row ∈ r.1.rows, row.id = item.id → row.attempts ≤ attempts := by
  cases h with
  | stay => exact hround.read
  | read item items message attempts hread =>
    intro item' items' message' attempts' heq row hrow hid
    obtain ⟨rfl, -, -, rfl⟩ := Flush.read.inj heq
    obtain ⟨row', hrow', hid', rfl⟩ := readAttempts_eq_some hread
    rw [List.inj_on_of_nodup_map hround.nodup hrow hrow' (hid.trans hid'.symm)]
  | _ => exact fun item items message attempts heq => by simp at heq

/-- A step of a round keeps the invariant. -/
theorem FlushMoves.inRound {r : OutboxStore K P × Flush K P} (h : FlushMoves db flush r)
    (hround : InRound db flush) : InRound r.1 r.2 := by
  have hloaded : (∀ item ∈ r.2.rest, ∀ row ∈ r.1.rows, row.id = item.id →
      row.entityId = item.entityId ∧ row.createdAt = item.createdAt) ∧
      r.2.rest.Pairwise fun item item' => item.createdAt ≤ item'.createdAt := by
    rcases h.rest with hrest | ⟨rank, hdb, hpoll⟩
    · refine ⟨fun item hitem row hrow hid => ?_, hround.sorted.sublist hrest⟩
      obtain ⟨old, hold, houtlasts⟩ := h.outlasts hround row hrow
      obtain ⟨hentity, hcreated⟩ :=
        hround.loaded item (hrest.subset hitem) old hold (houtlasts.id.symm.trans hid)
      exact ⟨houtlasts.entityId.trans hentity, houtlasts.createdAt.trans hcreated⟩
    · rw [hpoll, hdb]
      refine ⟨fun item hitem row hrow hid => ?_, pairwise_findOldest.imp CreatedBefore.le⟩
      have hitem' := (mem_of_mem_findOldest hitem).1
      rw [List.inj_on_of_nodup_map hround.nodup hrow hitem' hid]
      exact ⟨rfl, rfl⟩
  exact ⟨h.nodup hround.nodup, hloaded.1, hloaded.2, h.keeps_sent hround.sent,
    h.keeps_read hround⟩

/-- A dead row stays dead : it is not polled, and no round passes it again. -/
theorem FlushMoves.dead {r : OutboxStore K P × Flush K P} (h : FlushMoves db flush r)
    (hround : InRound db flush) {old row : OutboxEvent K P} (hold : old ∈ db.rows)
    (houtlasts : Outlasts db old row) (hdead : Dead db flush old) : Dead r.1 r.2 row := by
  refine ⟨?_, houtlasts.pending hdead.notMem hdead.pending, ?_⟩
  · rw [houtlasts.id]
    rcases h.accepted with heq | ⟨item, items, rfl, -, -, heq⟩
    · rw [heq]
      exact hdead.notMem
    · rw [heq]
      exact notMem_concat hdead.notMem (hdead.passed item (by simp [Flush.rest]))
  · rw [houtlasts.id]
    rcases h.rest with hrest | ⟨rank, -, hpoll⟩
    · exact fun item hitem => hdead.passed item (hrest.subset hitem)
    · rw [hpoll]
      intro item hitem hid
      obtain ⟨hmem, hpending⟩ := mem_of_mem_findOldest hitem
      rw [List.inj_on_of_nodup_map hround.nodup hmem hold hid, hdead.pending] at hpending
      exact absurd hpending (by simp)

/-- Only an accepted send adds to the topic. -/
theorem eq_send_of_accepted {a : FlushStep} {item : OutboxEvent K P}
    {items : List (OutboxEvent K P)}
    (h : (flushAct a db (.items (item :: items))).1.accepted = db.accepted ++ [item.id]) :
    ∃ outcome, a = .send outcome ∧ outcome.accepted = true := by
  cases a with
  | send outcome =>
    refine ⟨outcome, rfl, ?_⟩
    cases outcome with
    | failed message => simp [flushAct, afterTry, CallOutcome.accepted] at h
    | _ => rfl
  | _ => simp [flushAct] at h

/-- A step without an acceptance keeps the order. -/
theorem FlushMoves.ordered {r : OutboxStore K P × Flush K P} (h : FlushMoves db flush r)
    (hround : InRound db flush) (hordered : Ordered db flush)
    (haccepted : r.1.accepted = db.accepted) : Ordered r.1 r.2 := by
  intro row hrow row' hrow' holder hmem
  obtain ⟨old, hold, hlasts⟩ := h.outlasts hround row hrow
  obtain ⟨old', hold', hlasts'⟩ := h.outlasts hround row' hrow'
  have holder' : old.Older old' :=
    ⟨by rw [← hlasts.entityId, holder.1, hlasts'.entityId],
      by rw [← hlasts.createdAt, ← hlasts'.createdAt]; exact holder.2⟩
  rw [haccepted, hlasts'.id] at hmem
  rcases hordered old hold old' hold' holder' hmem with hbefore | hdead
  · left
    rw [haccepted, hlasts.id, hlasts'.id]
    exact hbefore
  · exact Or.inr (h.dead hround hold hlasts hdead)

/-- The acceptance of an item keeps the order, if it is not the first one or leaves no row
behind. -/
theorem Ordered.accept {item : OutboxEvent K P} {items : List (OutboxEvent K P)}
    (hround : InRound db (.items (item :: items))) (hordered : Ordered db (.items (item :: items)))
    (hrows : db'.rows = db.rows) (hrest : flush'.rest = items)
    (haccepted : db'.accepted = db.accepted ++ [item.id])
    (hbehind : db.LeavesNone item) :
    Ordered db' flush' := by
  intro row hrow row' hrow' holder hmem
  rw [hrows] at hrow hrow'
  by_cases hold : row'.id ∈ db.accepted
  · rcases hordered row hrow row' hrow' holder hold with ⟨hbefore, hlt⟩ | hdead
    · left
      rw [haccepted, List.idxOf_append_of_mem hbefore, List.idxOf_append_of_mem hold]
      exact ⟨List.mem_append_left _ hbefore, hlt⟩
    · right
      refine ⟨?_, hdead.pending, fun i hi => hdead.passed i ?_⟩
      · rw [haccepted]
        exact notMem_concat hdead.notMem (hdead.passed item (by simp [Flush.rest]))
      · rw [hrest] at hi
        exact List.mem_cons_of_mem _ hi
  · -- the item is `row'`, and this is its first acceptance
    have hitem : row'.id = item.id := by
      rw [haccepted, List.mem_append, List.mem_singleton] at hmem
      exact hmem.resolve_left hold
    obtain ⟨hentity, hcreated⟩ := hround.loaded item (by simp [Flush.rest]) row' hrow' hitem
    have holder' : row.Older item := ⟨holder.1.trans hentity, hcreated ▸ holder.2⟩
    by_cases hbefore : row.id ∈ db.accepted
    · left
      rw [haccepted, ← hitem]
      exact ⟨List.mem_append_left _ hbefore, idxOf_concat_lt hbefore hold⟩
    · right
      have hout : row.pending = false := by
        by_contra hpending
        exact hbefore (hbehind (hitem ▸ hold) row hrow holder' (by simpa using hpending))
      refine ⟨?_, hout, fun i hi hid => ?_⟩
      · rw [haccepted]
        refine notMem_concat hbefore fun hid => ?_
        have hsame := (hround.loaded item (by simp [Flush.rest]) row hrow hid.symm).2
        exact absurd holder'.2 (by omega)
      · -- what is still to come was not created before the item
        rw [hrest] at hi
        have hsame := (hround.loaded i (by simp [Flush.rest, hi]) row hrow hid.symm).2
        have hle := List.rel_of_pairwise_cons hround.sorted hi
        exact absurd holder'.2 (by omega)

/-- A step that leaves no row behind keeps the order. -/
theorem round_ordered {a : FlushStep} (hround : InRound db flush) (hordered : Ordered db flush)
    (hbehind : NoneLeftBehind (db, flush) a) :
    Ordered (round (db, flush) a).1 (round (db, flush) a).2 := by
  have hmoves := flushAct_moves a db flush
  rcases hmoves.accepted with hsame | ⟨item, items, rfl, hrows, hrest, haccepted⟩
  · exact hmoves.ordered hround hordered hsame
  · obtain ⟨outcome, rfl, houtcome⟩ := eq_send_of_accepted haccepted
    exact Ordered.accept hround hordered hrows hrest haccepted (hbehind houtcome)

end

/-! ## Runs -/

/-- A table with distinct ids before the first round. -/
structure BeforeRounds (s : OutboxStore K P × Flush K P) : Prop where
  nodup : (s.1.rows.map (·.id)).Nodup
  topic : s.1.topic = []
  flush : s.2 = .items []

theorem BeforeRounds.inRound {s : OutboxStore K P × Flush K P} (h : BeforeRounds s) :
    InRound s.1 s.2 := by
  refine ⟨h.nodup, ?_, ?_, ?_, ?_⟩ <;> simp [h.flush, Flush.rest, Flush.Sent]

theorem BeforeRounds.ordered {s : OutboxStore K P × Flush K P} (h : BeforeRounds s) :
    Ordered s.1 s.2 := by
  simp [Ordered, OutboxStore.accepted, h.topic]

/-- Two events of the entity 9, in the order of their creation. -/
def twoEvents : OutboxStore ℕ Unit × Flush ℕ Unit :=
  (⟨[createOutbox "queue-service" ⟨1, 1⟩ 0 .queueJoined 9 4 (),
    createOutbox "queue-service" ⟨2, 2⟩ 2 .queueLeft 9 5 ()], [], [], 6⟩, .items [])

/-- The send of the first event fails, the second is published, and the next round
publishes the first. -/
def secondFirst : List FlushStep :=
  [.poll id, .send (.failed "broker down"), .readFailed true, .writeFailed .acknowledged,
    .send .acknowledged, .markPublished .acknowledged 4000, .poll id, .send .acknowledged]

theorem twoEvents_beforeRounds : BeforeRounds twoEvents :=
  ⟨by decide, rfl, rfl⟩

/-- A round that publishes both. -/
def bothPublished : List FlushStep :=
  [.poll id, .send .acknowledged, .markPublished .acknowledged 4000, .send .acknowledged]

end Qoms
