import Qoms.ReservationOverlap

/-!
# What a booking is held to

The conflict query takes in a reservation that starts at the very end of the slot, where the
intervals do not meet. `refused_iff` says when a refusal is due to one that meets the slot,
and `backToBack` what follows for two slots of which the one ends where the other starts : they
are both bookable in their order, and not in the other.

`createReservation` compares `slotStart` with the end of the booking window only, and `seatNumber`
with the zone's capacity only. What it commits keeps every other bound, so all of them just when
the request's `slotStart` is not in the past and its seat is one of the zone's (`committed_iff`).
-/

set_option autoImplicit false

namespace Qoms.ReservationService

/-! ## Refusals -/

/-- The intervals of the reservation and of the slot intersect. -/
def Meets (slot : Slot) (r : ReservationEntity) : Prop :=
  (Set.Ico r.slotStart r.slotEnd ∩ Set.Ico slot.slotStart slot.slotEnd).Nonempty

/-- The reservation starts where the slot ends, or is empty and starts in it or there. -/
def Adjoins (slot : Slot) (r : ReservationEntity) : Prop :=
  r.slotStart = slot.slotEnd ∨
    (r.slotEnd ≤ r.slotStart ∧ slot.slotStart ≤ r.slotStart ∧ r.slotStart ≤ slot.slotEnd)

section

variable {db : ReservationDb} {slot slot' : Slot} {r : ReservationEntity}
  {dto dto' : CreateReservationDto} {user user' : Option RequestUserContext}
  {env env' : CreateEnv} {clock clock' : Clock}

theorem conflicts_iff : conflicts slot r = true ↔ ActiveOn slot.zoneId slot.seatNumber r ∧
    slot.slotStart ≤ r.slotStart ∧ r.slotStart ≤ slot.slotEnd := by
  simp only [conflicts, ActiveOn, Bool.and_eq_true, beq_iff_eq, decide_eq_true_eq]
  tauto

/-- What the range takes in meets the slot or adjoins it. -/
theorem meets_or_adjoins (hs : slot.slotStart ≤ r.slotStart) (he : r.slotStart ≤ slot.slotEnd) :
    Meets slot r ∨ Adjoins slot r := by
  rcases he.lt_or_eq with hlt | heq
  · rcases lt_or_ge r.slotStart r.slotEnd with hne | hempty
    · exact Or.inl ⟨r.slotStart, ⟨le_rfl, hne⟩, hs, hlt⟩
    · exact Or.inr (Or.inr ⟨hempty, hs, he⟩)
  · exact Or.inr (Or.inl heq)

theorem Adjoins.in_range (h : Adjoins slot r) :
    slot.slotStart ≤ r.slotStart ∧ r.slotStart ≤ slot.slotEnd := by
  rcases h with heq | ⟨-, hs, he⟩
  · rw [heq]
    exact ⟨slot.start_lt_end.le, le_rfl⟩
  · exact ⟨hs, he⟩

/-- A checked request is refused just when the range takes in an active reservation of its
seat. -/
theorem createReservation_refused_iff (hcheck : checkRequest dto user env = .ok slot) :
    (createReservation db dto user env clock).1 =
        .error (.badRequest "Selected seat is already reserved for this slot") ↔
      ∃ r ∈ db.reservations, ActiveOn slot.zoneId slot.seatNumber r ∧
        slot.slotStart ≤ r.slotStart ∧ r.slotStart ≤ slot.slotEnd := by
  simp only [createReservation, hcheck]
  cases hfind : findConflict slot db.reservations with
  | none =>
    refine iff_of_false (by simp) ?_
    rintro ⟨r, hr, hconflict⟩
    exact List.find?_eq_none.mp hfind r hr (conflicts_iff.mpr hconflict)
  | some r =>
    exact iff_of_true rfl
      ⟨r, List.mem_of_find?_eq_some hfind, conflicts_iff.mp (List.find?_some hfind)⟩

/-- A checked request that is not refused is committed. -/
theorem createReservation_of_free (hcheck : checkRequest dto user env = .ok slot)
    (hfree : ∀ r ∈ db.reservations, ActiveOn slot.zoneId slot.seatNumber r →
      ¬(slot.slotStart ≤ r.slotStart ∧ r.slotStart ≤ slot.slotEnd)) :
    createReservation db dto user env clock =
      (.ok (insertReservation db slot clock).1, (insertReservation db slot clock).2) := by
  have hnone : findConflict slot db.reservations = none :=
    List.find?_eq_none.mpr fun r hr hconflict =>
      hfree r hr (conflicts_iff.mp hconflict).1 (conflicts_iff.mp hconflict).2
  simp only [createReservation, hcheck, hnone]

end

/-- Whatever the table holds, a request that passes the checks is refused only if an active
reservation of its seat intersects its slot, exactly when there is such a one in case one
adjoins the slot. -/
theorem refused_iff (db : ReservationDb) (dto : CreateReservationDto)
    (user : Option RequestUserContext) (env : CreateEnv) (clock : Clock) (slot : Slot)
    (hcheck : checkRequest dto user env = .ok slot) :
    ((createReservation db dto user env clock).1 =
        .error (.badRequest "Selected seat is already reserved for this slot") →
      ∃ r ∈ db.reservations, ActiveOn slot.zoneId slot.seatNumber r ∧ Meets slot r) ↔
    ((∃ r ∈ db.reservations, ActiveOn slot.zoneId slot.seatNumber r ∧ Adjoins slot r) →
      ∃ r ∈ db.reservations, ActiveOn slot.zoneId slot.seatNumber r ∧ Meets slot r) := by
  rw [createReservation_refused_iff hcheck]
  constructor
  · rintro h ⟨r, hr, hactive, hadjoins⟩
    exact h ⟨r, hr, hactive, hadjoins.in_range⟩
  · rintro h ⟨r, hr, hactive, hs, he⟩
    rcases meets_or_adjoins hs he with hmeets | hadjoins
    · exact ⟨r, hr, hactive, hmeets⟩
    · exact h ⟨r, hr, hactive, hadjoins⟩

/-- A request for seat 8 of `hourZone`. -/
def seatEight (slotStart : ℤ) : CreateReservationDto :=
  ⟨1, some slotStart, 8⟩

/-- The request from one o'clock, and its slot. -/
def atOne : CreateReservationDto :=
  seatEight 3600000

def atOneSlot : Slot :=
  ⟨1, 2, 8, 3600000, 7200000, by decide⟩

/-- The tables after a first booking of the seat. -/
def firstBooked (slotStart : ℤ) : ReservationDb :=
  (createReservation .empty (seatEight slotStart) (some ⟨1, .student⟩) ⟨true, some hourZone, 0⟩
    ⟨0, 0⟩).2

theorem checkRequest_atOne :
    checkRequest atOne (some ⟨2, .student⟩) ⟨true, some hourZone, 0⟩ = .ok atOneSlot := by
  simp [checkRequest, atOne, seatEight, atOneSlot, hourZone, JsDate.gt, latestAllowed,
    JsDate.ofTime, slotEndOf, slotMinutes, maxTime]

/-- The hour from two o'clock is booked; the hour before it is free and is refused. -/
theorem atOne_refused :
    checkRequest atOne (some ⟨2, .student⟩) ⟨true, some hourZone, 0⟩ = .ok atOneSlot ∧
    (createReservation (firstBooked 7200000) atOne (some ⟨2, .student⟩)
        ⟨true, some hourZone, 0⟩ ⟨0, 0⟩).1 =
      .error (.badRequest "Selected seat is already reserved for this slot") ∧
    ¬∃ r ∈ (firstBooked 7200000).reservations,
      ActiveOn atOneSlot.zoneId atOneSlot.seatNumber r ∧ Meets atOneSlot r := by
  have hrows : (firstBooked 7200000).reservations =
      [⟨1, 1, 1, 8, 7200000, 10800000, .active, 0, none⟩] := by decide
  refine ⟨checkRequest_atOne, ?_, ?_⟩
  · rw [createReservation_refused_iff checkRequest_atOne, hrows]
    exact ⟨_, List.mem_singleton_self _, ⟨rfl, rfl, rfl⟩, by decide, by decide⟩
  rw [hrows]
  rintro ⟨r, hr, -, t, ht, ht'⟩
  rw [List.mem_singleton] at hr
  subst hr
  exact absurd (ht.1.trans_lt ht'.2) (lt_irrefl 7200000)

/-- Half an hour later the refusal is right. -/
theorem refused_iff_atOne :
    ∃ r ∈ (firstBooked 5400000).reservations,
      ActiveOn atOneSlot.zoneId atOneSlot.seatNumber r ∧ Meets atOneSlot r := by
  refine (refused_iff (firstBooked 5400000) atOne (some ⟨2, .student⟩)
    ⟨true, some hourZone, 0⟩ ⟨0, 0⟩ atOneSlot checkRequest_atOne).mpr ?_ ?_
  · exact fun _ => ⟨_, List.mem_singleton_self _, ⟨rfl, rfl, rfl⟩, 5400000, by decide⟩
  · rw [createReservation_refused_iff checkRequest_atOne]
    exact ⟨_, List.mem_singleton_self _, ⟨rfl, rfl, rfl⟩, by decide, by decide⟩

/-- Two slots of a seat, the one ending where the other starts, and nothing of the seat between
their ends : in their order both are committed, and in the other order the second is refused. -/
theorem backToBack {db : ReservationDb} {dto dto' : CreateReservationDto}
    {user user' : Option RequestUserContext} {env env' : CreateEnv} {slot slot' : Slot}
    (clock clock' : Clock) (hcheck : checkRequest dto user env = .ok slot)
    (hcheck' : checkRequest dto' user' env' = .ok slot') (hzone : slot'.zoneId = slot.zoneId)
    (hseat : slot'.seatNumber = slot.seatNumber) (hnext : slot'.slotStart = slot.slotEnd)
    (hfree : ∀ r ∈ db.reservations, ActiveOn slot.zoneId slot.seatNumber r →
      ¬(slot.slotStart ≤ r.slotStart ∧ r.slotStart ≤ slot'.slotEnd)) :
    createReservation (createReservation db dto user env clock).2 dto' user' env' clock' =
        (.ok (insertReservation (insertReservation db slot clock).2 slot' clock').1,
          (insertReservation (insertReservation db slot clock).2 slot' clock').2) ∧
      (createReservation (createReservation db dto' user' env' clock).2 dto user env clock').1 =
        .error (.badRequest "Selected seat is already reserved for this slot") := by
  have hlt := slot.start_lt_end
  have hlt' := slot'.start_lt_end
  have hfirst : createReservation db dto user env clock =
      (.ok (insertReservation db slot clock).1, (insertReservation db slot clock).2) :=
    createReservation_of_free hcheck fun r hr hactive hrange =>
      hfree r hr hactive ⟨hrange.1, hrange.2.trans (hnext ▸ hlt'.le)⟩
  have hfirst' : createReservation db dto' user' env' clock =
      (.ok (insertReservation db slot' clock).1, (insertReservation db slot' clock).2) := by
    refine createReservation_of_free hcheck' fun r hr hactive hrange => ?_
    rw [hzone, hseat] at hactive
    exact hfree r hr hactive ⟨hlt.le.trans (hnext ▸ hrange.1), hrange.2⟩
  rw [hfirst, hfirst', createReservation_refused_iff hcheck]
  refine ⟨createReservation_of_free hcheck' fun r hr hactive hrange => ?_, ?_⟩
  · rw [hzone, hseat] at hactive
    rcases List.mem_append.mp hr with hr | hr
    · exact hfree r hr hactive ⟨hlt.le.trans (hnext ▸ hrange.1), hrange.2⟩
    · -- the first slot started before the second
      obtain rfl := List.mem_singleton.mp hr
      exact absurd hrange.1 (hnext ▸ hlt.not_ge)
  · exact ⟨slot'.row (db.uuids + 1) clock, List.mem_append_right _ (List.mem_singleton_self _),
      ⟨rfl, hzone, hseat⟩, hlt.le.trans hnext.ge, hnext.le⟩

/-! ## Commits -/

section

variable {zone : ZoneSummary} {rules : ReservationRules}

theorem slotEndOf_of_rules (hrules : zone.rules = some rules) (slotStart : ℤ) :
    slotEndOf zone slotStart = slotStart + rules.reservationSlotMinutes * 60 * 1000 := by
  rw [slotEndOf, slotMinutes, hrules, Option.map_some, Option.getD_some]

/-- A start that is not after the end of the window, where that may be no date : then the
window ends after all dates. -/
theorem le_window (hrules : zone.rules = some rules) {now slotStart : ℤ}
    (hnow : JsDate.ofTime now ≠ none) (hdate : slotStart ≤ maxTime)
    (h : JsDate.gt (some slotStart) (latestAllowed zone now) = false) :
    slotStart ≤ now + rules.reservationWindowDays * 24 * 60 * 60 * 1000 := by
  have hvalid : -maxTime ≤ now := by
    rw [JsDate.ofTime] at hnow
    split_ifs at hnow with hin
    · exact hin.1
    · exact absurd rfl hnow
  rw [latestAllowed, hrules, Option.map_some, Option.getD_some, JsDate.ofTime] at h
  split_ifs at h with hin
  · simpa [JsDate.gt] using h
  · omega

/-- What any call commits. -/
theorem committed_eq_row {db : ReservationDb} {dto : CreateReservationDto}
    {user : Option RequestUserContext} {env : CreateEnv} {clock : Clock} {r : ReservationEntity}
    (h : (createReservation db dto user env clock).2.reservations = db.reservations ++ [r]) :
    ∃ slot, checkRequest dto user env = .ok slot ∧ r = slot.row (db.uuids + 1) clock := by
  rcases createReservation_cases db dto user env clock with ⟨slot, hcheck, -, heq⟩ | ⟨-, heq⟩
  · rw [heq, insertReservation_reservations] at h
    exact ⟨slot, hcheck, (List.singleton_inj.mp (List.append_cancel_left h)).symm⟩
  · rw [heq] at h
    exact absurd (List.append_right_eq_self.mp h.symm) (List.cons_ne_nil r [])

end

/-- Whatever the rules and the time : what `createReservation` commits starts between now and
the end of the booking window, is for a seat of the zone, and lasts one slot, exactly when the
`slotStart` of the request is not before now and its `seatNumber` is at least one. -/
theorem committed_iff (db : ReservationDb) (dto : CreateReservationDto)
    (user : Option RequestUserContext) (env : CreateEnv) (clock : Clock) (r : ReservationEntity)
    (hnow : JsDate.ofTime env.now ≠ none)
    (h : (createReservation db dto user env clock).2.reservations = db.reservations ++ [r]) :
    (∃ zone rules, env.zone = some zone ∧ zone.rules = some rules ∧
      env.now ≤ r.slotStart ∧
      r.slotStart ≤ env.now + rules.reservationWindowDays * 24 * 60 * 60 * 1000 ∧
      1 ≤ r.seatNumber ∧ r.seatNumber ≤ zone.capacity ∧
      r.slotEnd = r.slotStart + rules.reservationSlotMinutes * 60 * 1000 ∧
      r.slotStart < r.slotEnd) ↔
    (∃ slotStart, dto.slotStart = some slotStart ∧ env.now ≤ slotStart) ∧ 1 ≤ dto.seatNumber := by
  obtain ⟨slot, hcheck, rfl⟩ := committed_eq_row h
  obtain ⟨zone, rules, hzone, hrules, -, hstart, hwindow, -, hseat, hcap, hend, hdate⟩ :=
    checkRequest_eq_ok hcheck
  have hmax : slot.slotStart ≤ maxTime := by
    have := slot.start_lt_end
    rw [JsDate.ofTime] at hdate
    split_ifs at hdate with hin
    · omega
    · exact absurd rfl hdate
  constructor
  · rintro ⟨-, -, -, -, hle, -, hpos, -⟩
    exact ⟨⟨slot.slotStart, hstart, hle⟩, hpos.trans hseat.le⟩
  · rintro ⟨⟨slotStart, hstart', hle⟩, hpos⟩
    obtain rfl : slot.slotStart = slotStart := Option.some_inj.mp (hstart.symm.trans hstart')
    exact ⟨zone, rules, hzone, hrules, hle, le_window hrules hnow hmax hwindow,
      hpos.trans hseat.ge, hcap, hend.trans (slotEndOf_of_rules hrules _),
      slot.start_lt_end⟩

/-- A booking from one o'clock, made at two. -/
theorem atOne_committed_late : ∃ r,
    (createReservation .empty atOne (some ⟨2, .student⟩) ⟨true, some hourZone, 7200000⟩
      ⟨7200000, 7200000000⟩).2.reservations = ReservationDb.empty.reservations ++ [r] ∧
    r.slotStart < 7200000 :=
  ⟨atOneSlot.row 1 ⟨7200000, 7200000000⟩, rfl, by decide⟩

/-- The same booking, made at noon the day before. -/
theorem committed_iff_atOne : ∃ zone rules, some hourZone = some zone ∧
    zone.rules = some rules ∧ -43200000 ≤ (3600000 : ℤ) ∧
    (3600000 : ℤ) ≤ -43200000 + rules.reservationWindowDays * 24 * 60 * 60 * 1000 ∧
    (1 : ℤ) ≤ 8 ∧ 8 ≤ zone.capacity ∧
    (7200000 : ℤ) = 3600000 + rules.reservationSlotMinutes * 60 * 1000 ∧
    (3600000 : ℤ) < 7200000 :=
  (committed_iff .empty atOne (some ⟨2, .student⟩) ⟨true, some hourZone, -43200000⟩ ⟨0, 0⟩
    (atOneSlot.row 1 ⟨0, 0⟩) (by decide) rfl).mpr ⟨⟨3600000, rfl, by decide⟩, by decide⟩

end Qoms.ReservationService
