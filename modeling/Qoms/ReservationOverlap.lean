import Qoms.Reservation
import Qoms.Run
import Mathlib

/-!
# Overlapping reservations

The conflict query of `createReservation` looks for an active reservation of the seat
that *starts* in `[slotStart, slotEnd]`. Two half-open intervals can also intersect
because the older one starts before the new one and ends inside it or after it, and
those the query does not see.

`noOverlap_iff_startsClear` is the exact condition : a run of calls, one after another,
keeps the active reservations of each seat disjoint if and only if no call that is
admitted starts strictly inside an active reservation of its seat. `halfHourLater` is a
run that breaks it.
-/

set_option autoImplicit false

namespace Qoms

/-! ## Half-open intervals -/

section

variable {α : Type*} [LinearOrder α] {a b s e : α}

theorem ico_inter_nonempty_iff (hab : a < b) (hse : s < e) :
    (Set.Ico a b ∩ Set.Ico s e).Nonempty ↔ a < e ∧ s < b := by
  rw [Set.Ico_inter_Ico, Set.nonempty_Ico, sup_lt_iff, lt_inf_iff, lt_inf_iff]
  exact ⟨fun h => ⟨h.1.2, h.2.1⟩, fun h => ⟨⟨hab, h.1⟩, h.2, hse⟩⟩

/-- An interval that does not start in `[s, e]` meets `[s, e)` exactly when `s` is
strictly inside it. -/
theorem ico_inter_nonempty_iff_of_start (hab : a < b) (hse : s < e) (h : ¬(s ≤ a ∧ a ≤ e)) :
    (Set.Ico a b ∩ Set.Ico s e).Nonempty ↔ a < s ∧ s < b := by
  rw [ico_inter_nonempty_iff hab hse]
  constructor
  · rintro ⟨hae, hsb⟩
    exact ⟨lt_of_not_ge fun hsa => h ⟨hsa, hae.le⟩, hsb⟩
  · rintro ⟨has, hsb⟩
    exact ⟨has.trans hse, hsb⟩

end

namespace ReservationService

/-! ## Overlaps of a seat -/

/-- The time intervals of two reservations intersect. -/
def Overlap (a b : ReservationEntity) : Prop :=
  (Set.Ico a.slotStart a.slotEnd ∩ Set.Ico b.slotStart b.slotEnd).Nonempty

/-- `r` is an active reservation of the seat `seatNumber` of the zone. -/
def ActiveOn (zoneId : Uuid) (seatNumber : ℤ) (r : ReservationEntity) : Prop :=
  r.status = .active ∧ r.zoneId = zoneId ∧ r.seatNumber = seatNumber

/-- No two distinct active reservations of one seat overlap. -/
def NoOverlap (rows : List ReservationEntity) : Prop :=
  rows.Pairwise fun a b => a.status = .active → ActiveOn a.zoneId a.seatNumber b → ¬Overlap a b

/-- The slot starts strictly inside an active reservation of its seat. -/
def StartsInside (slot : Slot) (rows : List ReservationEntity) : Prop :=
  ∃ r ∈ rows, ActiveOn slot.zoneId slot.seatNumber r ∧ r.slotStart < slot.slotStart ∧
    slot.slotStart < r.slotEnd

/-- One call of the service. -/
inductive Call
  | create (dto : CreateReservationDto) (user : Option RequestUserContext) (env : CreateEnv)
      (clock : Clock)
  | cancel (id : Uuid) (user : Option RequestUserContext) (clock : Clock)

/-- The tables after one call. -/
def perform (db : ReservationDb) : Call → ReservationDb
  | .create dto user env clock => (createReservation db dto user env clock).2
  | .cancel id user clock => (cancelReservation db id user clock).2

/-- A creation that passes the checks and finds no conflict does not start inside an
active reservation of its seat. -/
def StartsClear (db : ReservationDb) : Call → Prop
  | .create dto user env _ =>
    ∀ slot, checkRequest dto user env = .ok slot → findConflict slot db.reservations = none →
      ¬StartsInside slot db.reservations
  | .cancel _ _ _ => True

/-! ## One call -/

/-- Every row's interval is not empty. -/
def StartsBeforeEnds (rows : List ReservationEntity) : Prop :=
  ∀ r ∈ rows, r.slotStart < r.slotEnd

theorem startsBeforeEnds_perform {db : ReservationDb} (h : StartsBeforeEnds db.reservations)
    (call : Call) : StartsBeforeEnds (perform db call).reservations := by
  cases call with
  | create dto user env clock =>
    rcases createReservation_cases db dto user env clock with ⟨slot, -, -, heq⟩ | ⟨-, heq⟩
    · rw [perform, heq, insertReservation_reservations]
      intro r hr
      rcases List.mem_append.mp hr with hr | hr
      · exact h r hr
      · rw [List.mem_singleton.mp hr]
        exact slot.start_lt_end
    · rw [perform, heq]
      exact h
  | cancel id user clock =>
    rcases cancelReservation_cases db id user clock with heq | ⟨r, hr, -, heq⟩
    · rw [perform, heq]
      exact h
    · rw [perform, heq, saveCancelled_reservations]
      intro r' hr'
      rcases mem_saveRow hr' with ⟨rfl, -⟩ | hr'
      · exact h r hr
      · exact h r' hr'

/-- Cancelling a row leaves no new pair of active rows. -/
theorem NoOverlap.saveRow {rows : List ReservationEntity} (h : NoOverlap rows)
    (r : ReservationEntity) (now : ℤ) : NoOverlap (saveRow (·.id) (r.cancel now) rows) := by
  refine List.pairwise_map.mpr (h.imp fun {a b} hab ha hb => ?_)
  have hne : ∀ x : ReservationEntity, (if x.id = (r.cancel now).id then r.cancel now else x).status
      = .active → x.id ≠ (r.cancel now).id := by
    intro x hx hid
    rw [if_pos hid] at hx
    exact absurd hx (by simp [ReservationEntity.cancel])
  have haid := hne a ha
  have hbid := hne b hb.1
  rw [if_neg haid, if_neg hbid] at *
  exact hab ha hb

/-- A free slot keeps the seat's reservations disjoint just when it does not start inside
one of them. -/
theorem noOverlap_insert_iff {db : ReservationDb} {slot : Slot}
    (hlt : StartsBeforeEnds db.reservations) (h : NoOverlap db.reservations)
    (hfree : findConflict slot db.reservations = none) (clock : Clock) :
    NoOverlap (insertReservation db slot clock).2.reservations ↔
      ¬StartsInside slot db.reservations := by
  have hiff : ∀ r ∈ db.reservations, ActiveOn slot.zoneId slot.seatNumber r →
      (Overlap r (slot.row (db.uuids + 1) clock) ↔
        r.slotStart < slot.slotStart ∧ slot.slotStart < r.slotEnd) := by
    intro r hr hactive
    have hnc := List.find?_eq_none.mp hfree r hr
    refine ico_inter_nonempty_iff_of_start (hlt r hr) slot.start_lt_end fun hbetween => hnc ?_
    obtain ⟨hs, hz, hn⟩ := hactive
    simpa [conflicts, hs, hz, hn, Slot.row] using hbetween
  rw [insertReservation_reservations, NoOverlap, List.pairwise_append]
  constructor
  · rintro ⟨-, -, hnew⟩ ⟨r, hr, hactive, hin⟩
    refine hnew r hr _ (List.mem_singleton_self _) hactive.1 ⟨rfl, hactive.2.1.symm,
      hactive.2.2.symm⟩ ((hiff r hr hactive).mpr hin)
  · intro hnot
    refine ⟨h, List.pairwise_singleton _ _, fun r hr b hb hact hon hov => hnot ?_⟩
    obtain rfl := List.mem_singleton.mp hb
    have hactive : ActiveOn slot.zoneId slot.seatNumber r := ⟨hact, hon.2.1.symm, hon.2.2.symm⟩
    exact ⟨r, hr, hactive, (hiff r hr hactive).mp hov⟩

/-- One call keeps the seats' reservations disjoint just when it meets the condition. -/
theorem noOverlap_perform_iff {db : ReservationDb} (hlt : StartsBeforeEnds db.reservations)
    (h : NoOverlap db.reservations) (call : Call) :
    NoOverlap (perform db call).reservations ↔ StartsClear db call := by
  cases call with
  | create dto user env clock =>
    rcases createReservation_cases db dto user env clock with
      ⟨slot, hcheck, hfree, heq⟩ | ⟨hrejected, heq⟩
    · rw [perform, heq, noOverlap_insert_iff hlt h hfree]
      constructor
      · intro hclear slot' hcheck' _
        obtain rfl : slot = slot' := Except.ok.inj (hcheck.symm.trans hcheck')
        exact hclear
      · exact fun hclear => hclear slot hcheck hfree
    · rw [perform, heq]
      exact ⟨fun _ slot hcheck hfree => absurd hfree (hrejected slot hcheck), fun _ => h⟩
  | cancel id user clock =>
    rcases cancelReservation_cases db id user clock with heq | ⟨r, -, -, heq⟩
    · rw [perform, heq]
      exact ⟨fun _ => trivial, fun _ => h⟩
    · rw [perform, heq, saveCancelled_reservations]
      exact ⟨fun _ => trivial, fun _ => h.saveRow r clock.now⟩

/-! ## Runs -/

/-- The reservations of each seat are disjoint throughout a run of calls exactly when no
admitted call of the run starts inside an active reservation of its seat. -/
theorem noOverlap_iff_startsClear (calls : List Call) :
    Throughout perform .empty calls (fun db => NoOverlap db.reservations) ↔
      EachStep perform .empty calls StartsClear :=
  throughout_iff_eachStep (fun _ => True)
    (fun _ call _ hlt => startsBeforeEnds_perform hlt call)
    (fun _ call _ hlt h => noOverlap_perform_iff hlt h call)
    (by simp [StartsBeforeEnds, ReservationDb.empty]) List.Pairwise.nil fun _ _ => trivial

/-- A booking of seat 1 of `hourZone`, made at time zero. -/
def bookSeat (userId : Uuid) (slotStart : ℤ) : Call :=
  .create ⟨1, some slotStart, 1⟩ (some ⟨userId, .student⟩) ⟨true, some hourZone, 0⟩
    ⟨0, 0⟩

/-- One user books the hour from one o'clock, another the hour from half past one. -/
def halfHourLater : List Call :=
  [bookSeat 1 3600000, bookSeat 2 5400000]

/-- The query for the later slot misses the reservation that started half an hour
before, and both are active. -/
theorem halfHourLater_overlaps : ¬NoOverlap (run perform .empty halfHourLater).reservations := by
  have hrows : (run perform .empty halfHourLater).reservations =
      [⟨1, 1, 1, 1, 3600000, 7200000, .active, 0, none⟩,
        ⟨5, 1, 2, 1, 5400000, 9000000, .active, 0, none⟩] := by decide
  rw [hrows, NoOverlap, List.pairwise_pair]
  intro h
  exact h rfl ⟨rfl, rfl, rfl⟩ ⟨5400000, by simp [Set.mem_Ico]⟩

end ReservationService

end Qoms
