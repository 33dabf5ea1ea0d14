import Qoms.NotificationRace
import Qoms.Table

/-!
# The inbox

`listMyNotifications` and `markAsRead` of `NotificationService`, among the deliveries that
fill the inbox. `markAsRead` finds the notification by its id and the user, and saves it with
the time; between the two any other request or delivery can come.

A notification keeps its place, its user and its text, and once read it stays read (`Ages`).
It is read only by its own user : whatever is read was found for that user and saved
(`inbox_kept`).
-/

set_option autoImplicit false

namespace Qoms.NotificationService

/-! ## Listing and marking -/

/-- `listMyNotifications`; rows of one time come in the order of `rank`. -/
def listMyNotifications (rows : List NotificationEntity) (user : Option RequestUserContext)
    (rank : NotificationEntity → ℕ) : Except HttpError (List NotificationEntity) := do
  let some user := user | throw (.badRequest "Missing user context")
  return (rows.filter fun r => r.userId == user.userId).insertionSort
    (CreatedBefore (fun r => -r.createdAt) rank)

/-- The lookup of `markAsRead`. -/
def findNotification (rows : List NotificationEntity) (id : String)
    (user : Option RequestUserContext) : Except HttpError NotificationEntity := do
  let some user := user | throw (.badRequest "Missing user context")
  let some id := uuidIn id | throw .database
  let some item := rows.find? fun r => r.id == id && r.userId == user.userId |
    throw (.notFound "Notification not found")
  return item

/-- `item.readAt = new Date()`. -/
def NotificationEntity.markRead (item : NotificationEntity) (now : ℤ) : NotificationEntity :=
  { item with readAt := some now }

/-- `save(item)`. -/
def saveItem (db : NotificationDb) (item : NotificationEntity) : NotificationDb :=
  { db with notifications := saveRow (·.id) item db.notifications }

/-- `markAsRead`. -/
def markAsRead (db : NotificationDb) (id : String) (user : Option RequestUserContext) (now : ℤ) :
    NotificationDb × Except HttpError NotificationEntity :=
  match findNotification db.notifications id user with
  | .error e => (db, .error e)
  | .ok item => (saveItem db (item.markRead now), .ok (item.markRead now))

/-- The listing is the user's rows, the newest first. -/
theorem listMyNotifications_ok {rows items : List NotificationEntity}
    {user : Option RequestUserContext} {rank : NotificationEntity → ℕ}
    (h : listMyNotifications rows user rank = .ok items) : ∃ u ∈ user,
      items.Perm (rows.filter fun r => r.userId == u.userId) ∧
        items.Pairwise fun a b => b.createdAt ≤ a.createdAt := by
  cases user with
  | none => simp [listMyNotifications] at h
  | some u =>
    simp only [listMyNotifications, pure_eq_ok] at h
    subst h
    refine ⟨u, rfl, List.perm_insertionSort _ _, ?_⟩
    have hsorted : ((rows.filter fun r => r.userId == u.userId).insertionSort
        (CreatedBefore (fun r => -r.createdAt) rank)).Pairwise
          (CreatedBefore (fun r => -r.createdAt) rank) := pairwise_sorted
    exact hsorted.imp fun hab => by simpa using hab.le

/-- A notification is found for its own user. -/
theorem findNotification_ok {rows : List NotificationEntity} {id : String}
    {user : Option RequestUserContext} {item : NotificationEntity}
    (h : findNotification rows id user = .ok item) :
    item ∈ rows ∧ ∃ u, user = some u ∧ uuidIn id = some item.id ∧ u.userId = item.userId := by
  cases user with
  | none => simp [findNotification] at h
  | some u =>
    cases hid : uuidIn id with
    | none => simp [findNotification, hid] at h
    | some value =>
      cases hfind : rows.find? fun r => r.id == value && r.userId == u.userId with
      | none => simp [findNotification, hid, hfind] at h
      | some found =>
        obtain rfl : found = item := by simpa [findNotification, hid, hfind] using h
        have hcond := List.find?_some hfind
        simp only [Bool.and_eq_true, beq_iff_eq] at hcond
        exact ⟨List.mem_of_find?_eq_some hfind, u, rfl, by rw [hcond.1], hcond.2.symm⟩

/-! ## Requests and deliveries in flight -/

/-- Where a delivery or a request stands. -/
inductive InboxRequest
  | delivery (request : Request)
  | found (item : NotificationEntity)
  | listed (items : Except HttpError (List NotificationEntity))
  | marked (item : Except HttpError NotificationEntity)

/-- A step of a delivery, the query of a listing, or the two of a mark. -/
inductive InboxAction
  | deliver (a : Action)
  | list (user : Option RequestUserContext) (rank : NotificationEntity → ℕ)
  | find (id : String) (user : Option RequestUserContext)
  | save (now : ℤ) (commit : CallOutcome)

/-- What a step does; a step that is not the next one does nothing. -/
def inboxAct : InboxAction → NotificationDb → InboxRequest → NotificationDb × InboxRequest
  | .deliver a, db, .delivery request =>
    ((act a db request).1, .delivery (act a db request).2)
  | .list user rank, db, .delivery .idle =>
    (db, .listed (listMyNotifications db.notifications user rank))
  | .find id user, db, .delivery .idle =>
    match findNotification db.notifications id user with
    | .error e => (db, .marked (.error e))
    | .ok item => (db, .found item)
  | .save now commit, db, .found item =>
    match commit with
    | .acknowledged => (saveItem db (item.markRead now), .marked (.ok (item.markRead now)))
    | .failed _ => (db, .marked (.error .database))
    | .unacknowledged _ => (saveItem db (item.markRead now), .marked (.error .database))
  | _, db, request => (db, request)

/-- What a step can do. -/
inductive InboxMoves (db : NotificationDb) :
    InboxAction → InboxRequest → NotificationDb → InboxRequest → Prop
  | deliver (a : Action) (request : Request) :
      InboxMoves db (.deliver a) (.delivery request) (act a db request).1
        (.delivery (act a db request).2)
  | list (user : Option RequestUserContext) (rank : NotificationEntity → ℕ) :
      InboxMoves db (.list user rank) (.delivery .idle) db
        (.listed (listMyNotifications db.notifications user rank))
  | refuse {id : String} {user : Option RequestUserContext} (e : HttpError) :
      InboxMoves db (.find id user) (.delivery .idle) db (.marked (.error e))
  | find {id : String} {user : Option RequestUserContext} {item : NotificationEntity}
      (h : findNotification db.notifications id user = .ok item) :
      InboxMoves db (.find id user) (.delivery .idle) db (.found item)
  | save (now : ℤ) {commit : CallOutcome} (item : NotificationEntity)
      {answer : Except HttpError NotificationEntity} (haccepted : commit.accepted = true)
      (hanswer : ∀ saved, answer = .ok saved → saved = item.markRead now) :
      InboxMoves db (.save now commit) (.found item) (saveItem db (item.markRead now))
        (.marked answer)
  | fail (now : ℤ) (commit : CallOutcome) (item : NotificationEntity) :
      InboxMoves db (.save now commit) (.found item) db (.marked (.error .database))
  | stay (a : InboxAction) (request : InboxRequest) : InboxMoves db a request db request

theorem inboxAct_moves (a : InboxAction) (db : NotificationDb) (request : InboxRequest) :
    InboxMoves db a request (inboxAct a db request).1 (inboxAct a db request).2 := by
  unfold inboxAct
  split
  · exact .deliver _ _
  · exact .list _ _
  · split
    · exact .refuse _
    · rename_i hfind
      exact .find hfind
  · split
    · exact .save _ _ rfl fun _ h => (Except.ok.inj h).symm
    · exact .fail _ _ _
    · exact .save _ _ rfl nofun
  · exact .stay _ _

/-- Empty tables and nothing in flight. -/
def inboxInit : Shared NotificationDb InboxRequest :=
  ⟨⟨[], [], 0⟩, fun _ => .delivery .idle⟩

/-- The two steps of a mark with nothing between them are `markAsRead`. -/
theorem run_markAsRead (s : Shared NotificationDb InboxRequest) (p : ℕ)
    (hp : s.requests p = .delivery .idle) (id : String) (user : Option RequestUserContext)
    (now : ℤ) :
    let t := run (Shared.step inboxAct) s [(p, .find id user), (p, .save now .acknowledged)]
    t.db = (markAsRead s.db id user now).1 ∧
      t.requests p = .marked (markAsRead s.db id user now).2 := by
  simp only [run_cons, run_nil, Shared.step_db, Shared.step_requests_self, hp, inboxAct, markAsRead]
  cases findNotification s.db.notifications id user with
  | error e => exact ⟨rfl, rfl⟩
  | ok item => exact ⟨rfl, rfl⟩

/-! ## The invariant -/

/-- A notification but for when it was read. -/
def NotificationEntity.unread (row : NotificationEntity) : NotificationEntity :=
  { row with readAt := none }

/-- `b` is a later version of the row `a` : the same notification, and still read if it was. -/
def Ages (a b : NotificationEntity) : Prop :=
  a.unread = b.unread ∧ (a.readAt.isSome = true → b.readAt.isSome = true)

theorem Ages.refl (a : NotificationEntity) : Ages a a :=
  ⟨rfl, id⟩

theorem Ages.trans (a b c : NotificationEntity) (hab : Ages a b) (hbc : Ages b c) : Ages a c :=
  ⟨hab.1.trans hbc.1, fun h => hbc.2 (hab.2 h)⟩

theorem Ages.id_eq (a b : NotificationEntity) (h : Ages a b) : a.id = b.id :=
  (congrArg (·.id) h.1 : a.unread.id = b.unread.id)

/-- Marking ages the notification. -/
theorem Ages.markRead (a : NotificationEntity) (now : ℤ) : Ages a (a.markRead now) :=
  ⟨rfl, fun _ => rfl⟩

/-- A read version of a row is a version of each of its versions. -/
theorem Ages.marked {item : NotificationEntity} {now : ℤ} (a b : NotificationEntity)
    (hab : Ages a b) (hmem : Ages a (item.markRead now)) : Ages b (item.markRead now) :=
  ⟨hab.1.symm.trans hmem.1, fun _ => rfl⟩

/-- The tables of `db'` grew from those of `db`. -/
def NotificationDb.Grows (db db' : NotificationDb) : Prop :=
  Qoms.Grows (·.id) Ages db.notifications db.uuids db'.notifications db'.uuids

/-- Row ids are distinct and drawn. -/
def NotificationDb.Keyed (db : NotificationDb) : Prop :=
  Qoms.Keyed (·.id) db.notifications db.uuids

/-- The table has a later version of the notification. -/
def Stored (item : NotificationEntity) (db : NotificationDb) : Prop :=
  ∃ row ∈ db.notifications, Ages item row

/-- What a request relies on, and what became of what it answered. -/
def InboxRequest.Sound (db : NotificationDb) : InboxRequest → Prop
  | .found item => Stored item db ∧
    ∀ now, Holds (·.id) Ages (item.markRead now) db.notifications db.uuids
  | .marked (.ok item) => item.readAt.isSome = true ∧ Stored item db
  | .listed (.ok items) => ∀ item ∈ items, Stored item db
  | _ => True

section

variable {db db' : NotificationDb} {item : NotificationEntity} {request : InboxRequest}

theorem Stored.grows (h : Stored item db) (hgrows : db.Grows db') : Stored item db' := by
  obtain ⟨row, hrow, hages⟩ := h
  obtain ⟨row', hrow', hages'⟩ := hgrows.later.exists_version hrow
  exact ⟨row', hrow', hages.trans _ _ _ hages'⟩

theorem InboxRequest.Sound.grows (h : request.Sound db) (hgrows : db.Grows db') :
    request.Sound db' := by
  cases request with
  | delivery request => trivial
  | found item =>
    exact ⟨h.1.grows hgrows, fun now => (h.2 now).grows Ages.id_eq Ages.marked hgrows⟩
  | listed items =>
    cases items with
    | error e => trivial
    | ok items => exact fun item hitem => (h item hitem).grows hgrows
  | marked item =>
    cases item with
    | error e => trivial
    | ok item => exact ⟨h.1, h.2.grows hgrows⟩

/-- A table with nothing but unread rows of newly drawn ids added. -/
structure Appended (db db' : NotificationDb) : Prop where
  keyed : db.Keyed → db'.Keyed
  grows : db.Grows db'
  new : ∀ row ∈ db'.notifications, row ∈ db.notifications ∨ row.readAt = none

theorem Appended.refl (db : NotificationDb) : Appended db db :=
  ⟨id, Grows.refl Ages.refl _ _, fun _ h => Or.inl h⟩

theorem Appended.trans {db'' : NotificationDb} (h : Appended db db') (h' : Appended db' db'') :
    Appended db db'' where
  keyed hkeyed := h'.keyed (h.keyed hkeyed)
  grows := h.grows.trans Ages.id_eq Ages.trans h'.grows
  new row hrow := (h'.new row hrow).elim (h.new row) Or.inr

/-- A new row. -/
theorem appended_insert {draft : Draft} {row : NotificationEntity} {now : ℤ}
    (h : draft.row db.uuids now = .ok row) : Appended db
      { db with notifications := db.notifications ++ [row], uuids := db.uuids + 1 } := by
  obtain ⟨userId, zoneId, -, -, rfl⟩ := Draft.row_eq_ok.mp h
  refine ⟨fun hkeyed => hkeyed.insert le_rfl (Nat.lt_succ_self _),
    Grows.insert Ages.refl le_rfl (Nat.lt_succ_self _), fun row hrow => ?_⟩
  rcases List.mem_append.mp hrow with hrow | hrow
  · exact Or.inl hrow
  · rw [List.mem_singleton.mp hrow]
    exact Or.inr rfl

/-- More ids are drawn. -/
theorem appended_draw (db : NotificationDb) (processed : List ProcessedEvent) :
    Appended db { db with processed := processed, uuids := db.uuids + 1 } where
  keyed hkeyed := ⟨hkeyed.nodup, fun r hr => (hkeyed.fresh r hr).trans (Nat.lt_succ_self _)⟩
  grows := ⟨Later.refl Ages.refl _, fun r hr => Or.inl ⟨r, hr, Ages.refl r⟩, Nat.le_succ _⟩
  new _ hrow := Or.inl hrow

theorem appended_saveNotifications {failing : ℕ → Bool} {now : ℤ} {drafts : List Draft}
    (h : saveNotifications db failing now drafts = .ok db') : Appended db db' := by
  induction drafts generalizing db failing with
  | nil =>
    obtain rfl : db = db' := by simpa [saveNotifications] using h
    exact .refl db
  | cons draft drafts ih =>
    simp only [saveNotifications, throw_bind, throw_if_eq_ok, bind_eq_ok, mapError_eq_ok] at h
    obtain ⟨-, row, hrow, h⟩ := h
    exact (appended_insert hrow).trans (ih h)

/-- A delivery only adds unread rows. -/
theorem appended_act (a : Action) (db : NotificationDb) (request : Request) :
    Appended db (act a db request).1 := by
  rcases act_db_cases a db request with h | ⟨faults, now, event, drafts, -, -, h⟩
  · rw [h]
    exact .refl db
  · simp only [saveEvent, throw_bind, throw_if_eq_ok, bind_eq_ok, pure_eq_ok] at h
    obtain ⟨saved, hsaved, -, -, -, hdb⟩ := h
    rw [← hdb]
    exact (appended_saveNotifications hsaved).trans (appended_draw saved _)

/-- A step keeps the tables keyed, only lets them grow, and leaves its request sound. -/
theorem InboxMoves.guarantees {a : InboxAction} {request' : InboxRequest}
    (h : InboxMoves db a request db' request') (hkeyed : db.Keyed) (hsound : request.Sound db) :
    Shared.Guarantees NotificationDb.Keyed (fun db r => r.Sound db) NotificationDb.Grows db
      (db', request') := by
  have hsame : db.Grows db := Grows.refl Ages.refl _ _
  cases h with
  | deliver a request =>
    have happended := appended_act a db request
    exact ⟨happended.keyed hkeyed, happended.grows, trivial⟩
  | list user rank =>
    refine ⟨hkeyed, hsame, ?_⟩
    cases hlist : listMyNotifications db.notifications user rank with
    | error e => trivial
    | ok items =>
      obtain ⟨u, -, hperm, -⟩ := listMyNotifications_ok hlist
      exact fun item hitem =>
        ⟨item, List.mem_of_mem_filter (hperm.mem_iff.mp hitem), Ages.refl item⟩
  | refuse e => exact ⟨hkeyed, hsame, trivial⟩
  | @find id user item hfind =>
    have hmem := (findNotification_ok hfind).1
    exact ⟨hkeyed, hsame, ⟨item, hmem, Ages.refl item⟩,
      fun now => Holds.of_mem hkeyed hmem rfl (Ages.markRead item now)⟩
  | @save now commit item answer haccepted hanswer =>
    obtain ⟨⟨row, hrow, hages⟩, hholds⟩ := hsound
    refine ⟨hkeyed.saveRow (hholds now).drawn le_rfl,
      Grows.saveRow Ages.refl (hholds now) le_rfl, ?_⟩
    cases answer with
    | error e => trivial
    | ok saved =>
      obtain rfl := hanswer saved rfl
      refine ⟨rfl, item.markRead now, ?_, Ages.refl _⟩
      exact List.mem_map.mpr ⟨row, hrow, if_pos (Ages.id_eq _ _ hages).symm⟩
  | fail now commit item => exact ⟨hkeyed, hsame, trivial⟩
  | stay => exact ⟨hkeyed, hsame, hsound⟩

end

theorem safe_inboxInit : inboxInit.Safe NotificationDb.Keyed fun db r => r.Sound db :=
  ⟨Keyed.nil, fun _ => trivial⟩

theorem safe_inbox (as : List (ℕ × InboxAction)) :
    (run (Shared.step inboxAct) inboxInit as).Safe NotificationDb.Keyed fun db r => r.Sound db :=
  safe_inboxInit.run (fun _ => True) NotificationDb.Grows
    (fun a db r _ hkeyed hsound => (inboxAct_moves a db r).guarantees hkeyed hsound)
    (fun _ _ _ hgrows h => h.grows hgrows) (fun _ _ => trivial)

/-! ## Who reads what -/

/-- Someone marked the notification with the times `as` and `bs` of a run, its own user : the
request found it, and saved it in `bs`. -/
def MarkedByUser (as bs : List (ℕ × InboxAction)) (row : NotificationEntity) : Prop :=
  ∃ p id user now commit, (p, .find id (some user)) ∈ as ++ bs ∧ (p, .save now commit) ∈ bs ∧
    uuidIn id = some row.id ∧ user.userId = row.userId ∧ row.readAt = some now

/-- What a request holds it found for the notification's user. -/
def FoundForUser (as : List (ℕ × InboxAction)) (p : ℕ) (request : InboxRequest) : Prop :=
  ∀ item, request = .found item → ∃ id user, (p, .find id (some user)) ∈ as ∧
    uuidIn id = some item.id ∧ user.userId = item.userId

theorem foundForUser_run (as : List (ℕ × InboxAction)) (p : ℕ) :
    FoundForUser as p ((run (Shared.step inboxAct) inboxInit as).requests p) := by
  refine Shared.run_requests_invariant (I := FoundForUser as)
    (fun p a db request hmem hrequest item hfound => ?_) (fun _ _ hidle => by cases hidle) p
  have hmoves := inboxAct_moves a db request
  rw [hfound] at hmoves
  generalize (inboxAct a db request).1 = db' at hmoves
  cases hmoves with
  | find hfind =>
    obtain ⟨-, u, rfl, hid, huser⟩ := findNotification_ok hfind
    exact ⟨_, u, hmem, hid, huser⟩
  | stay => exact hrequest item rfl

/-- What is read now was as it is before the steps `bs`, or its user marked it in `bs`. -/
theorem readAt_run (as bs : List (ℕ × InboxAction)) :
    ∀ row ∈ (run (Shared.step inboxAct) inboxInit (as ++ bs)).db.notifications,
      row.readAt = none ∨ row ∈ (run (Shared.step inboxAct) inboxInit as).db.notifications ∨
        MarkedByUser as bs row := by
  induction bs using List.reverseRecOn with
  | nil => exact fun row hrow => Or.inr (Or.inl (by simpa using hrow))
  | append_singleton bs pa ih =>
    intro row hrow
    obtain ⟨p, a⟩ := pa
    have hbefore : ∀ row ∈ (run (Shared.step inboxAct) inboxInit (as ++ bs)).db.notifications,
        row.readAt = none ∨ row ∈ (run (Shared.step inboxAct) inboxInit as).db.notifications ∨
          MarkedByUser as (bs ++ [(p, a)]) row := by
      intro row hrow
      refine (ih row hrow).imp_right (Or.imp_right ?_)
      rintro ⟨q, id, user, now, commit, hfind, hsave, hrest⟩
      refine ⟨q, id, user, now, commit, ?_, List.mem_append_left _ hsave, hrest⟩
      rw [← List.append_assoc]
      exact List.mem_append_left _ hfind
    have hfound := foundForUser_run (as ++ bs) p
    rw [← List.append_assoc, run_append, run_cons, run_nil, Shared.step_db] at hrow
    have hmoves := inboxAct_moves a (run (Shared.step inboxAct) inboxInit (as ++ bs)).db
      ((run (Shared.step inboxAct) inboxInit (as ++ bs)).requests p)
    generalize (run (Shared.step inboxAct) inboxInit (as ++ bs)).requests p = request
      at hmoves hfound hrow
    generalize (inboxAct a (run (Shared.step inboxAct) inboxInit (as ++ bs)).db request).1 = db'
      at hmoves hrow
    generalize (inboxAct a _ request).2 = request' at hmoves
    cases hmoves with
    | deliver a request =>
      exact ((appended_act a _ request).new row hrow).elim (hbefore row) Or.inl
    | @save now commit item answer =>
      rcases mem_saveRow hrow with ⟨rfl, -⟩ | hrow
      · obtain ⟨id, user, hmem, hid, huser⟩ := hfound item rfl
        refine Or.inr (Or.inr ⟨p, id, user, now, commit, ?_, by simp, hid, huser, rfl⟩)
        rw [← List.append_assoc]
        exact List.mem_append_left _ hmem
      · exact hbefore row hrow
    | _ => exact hbefore row hrow

/-- Between two moments of a run every notification keeps its place, user and text, and stays
read if it was; whatever was read in between, its own user marked. What a mark answered is
stored, and read; what a listing answered is stored. -/
theorem inbox_kept (as bs : List (ℕ × InboxAction)) :
    let s := run (Shared.step inboxAct) inboxInit as
    let t := run (Shared.step inboxAct) inboxInit (as ++ bs)
    Later Ages s.db.notifications t.db.notifications ∧
      (∀ row ∈ t.db.notifications, row.readAt = none ∨ row ∈ s.db.notifications ∨
        MarkedByUser as bs row) ∧
      (∀ p item, s.requests p = .marked (.ok item) → ∃ row ∈ t.db.notifications,
        row.unread = item.unread ∧ row.readAt.isSome = true) ∧
      ∀ p items, s.requests p = .listed (.ok items) → ∀ item ∈ items,
        ∃ row ∈ t.db.notifications, Ages item row := by
  intro s t
  have hsafe : s.Safe NotificationDb.Keyed fun db r => r.Sound db := safe_inbox as
  have hinv : ∀ (u : Shared NotificationDb InboxRequest) (pa : ℕ × InboxAction), True →
      u.Safe NotificationDb.Keyed (fun db r => r.Sound db) →
        (Shared.step inboxAct u pa).Safe NotificationDb.Keyed fun db r => r.Sound db :=
    fun u pa _ h => h.step ((inboxAct_moves _ _ _).guarantees h.store (h.sound pa.1))
      fun _ _ _ hgrows hsound => hsound.grows hgrows
  have hsteadily : Steadily (Shared.step inboxAct) inboxInit (as ++ bs)
      fun u v => u.db.Grows v.db :=
    steadily_of_step (G := fun u v => u.db.Grows v.db) (fun _ => True) hinv
      (fun _ _ => Grows.refl Ages.refl _ _)
      (fun _ _ _ h h' => Grows.trans Ages.id_eq Ages.trans h h')
      (fun _ _ _ h => ((inboxAct_moves _ _ _).guarantees h.store (h.sound _)).rely)
      safe_inboxInit fun _ _ => trivial
  have hgrows : s.db.Grows t.db :=
    hsteadily as (as ++ bs) (List.prefix_append as bs) List.prefix_rfl
  refine ⟨hgrows.later, readAt_run as bs, fun p item hp => ?_, fun p items hp item hitem => ?_⟩
  · have hsound := hsafe.sound p
    rw [hp] at hsound
    obtain ⟨row, hrow, hages⟩ := hsound.2.grows hgrows
    exact ⟨row, hrow, hages.1.symm, hages.2 hsound.1⟩
  · have hsound := hsafe.sound p
    rw [hp] at hsound
    exact (hsound item hitem).grows hgrows

end Qoms.NotificationService
