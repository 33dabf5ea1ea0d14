import Qoms.RoleAccess
import Qoms.Shared

/-!
# Accounts under concurrent requests

`register` and `updateRole` first add the default roles that are missing, one after another;
then `register` looks for a user with the email and inserts one, and `updateRole` loads a user
and saves it. Here any number of them take these steps in any order (`accountAct`), any
statement can fail, and a commit can go unacknowledged. Two requests can find the same email
free : then the unique constraint refuses the second.

So emails stay unique, and a user keeps what it registered with for good; only the role and the
time of the last update change (`accounts_kept`). And whoever was told to be registered can log in
from then on, in whatever case the email is spelled (`login_registered`).

How an email is lowered is a parameter, as is what `save` writes for the role (`roleColumn`).
-/

set_option autoImplicit false

namespace Qoms.UserService

open Gateway (plainPasswords)

/-! ## Requests in flight -/

/-- What a request does once the default roles are there. -/
inductive Task
  | register (dto : RegisterDto)
  | updateRole (id : Uuid) (role : Role)

/-- What a request throws : an exception of a handler, a violated constraint, or no answer of
the database. -/
inductive AccountError
  | http (e : HttpException)
  | duplicateRole
  | duplicateEmail
  | unknownRole
  | connection
  deriving DecidableEq

/-- Where a request stands : it has the roles `rest` still to look for, or found that `role` is
missing; no user has the email of the body; it holds the user with the new role; or it ended. -/
inductive Session
  | idle
  | ensuring (rest : List Role) (task : Task)
  | missing (role : Role) (rest : List Role) (task : Task)
  | free (dto : RegisterDto)
  | loaded (user : UserEntity)
  | registered (user : UserEntity)
  | updated (user : UserEntity)
  | failed (error : AccountError)

/-- A request arrives; a default role is looked for, or saved; the users are read; a new user is
inserted, its password hashed with a salt; a loaded one is saved; or a query fails. `seen` says
whether the lookup that `save` itself makes finds the role, if it is there at the insert. -/
inductive AccountAction
  | register (dto : RegisterDto)
  | updateRole (id : Uuid) (role : Role)
  | checkRole
  | saveRole (seen : Bool) (commit : CallOutcome)
  | find
  | insert (salt : String) (dbNow : ℤ) (commit : CallOutcome)
  | save (dbNow : ℤ) (commit : CallOutcome)
  | abort

/-- The table of roles has the role. -/
def hasRole (db : UserDb) (role : Role) : Bool :=
  db.roles.any (·.name == role)

/-- The insert of a role. -/
def insertRole (db : UserDb) (role : Role) : UserDb :=
  { db with roles := db.roles ++ [⟨role, defaultRoles role⟩] }

/-- The update of the description of a role. -/
def describeRole (db : UserDb) (role : Role) : UserDb :=
  { db with roles := db.roles.map fun row => if row.name = role then ⟨role, defaultRoles role⟩
      else row }

/-- The insert of a user. -/
def insertUser (roleColumn : UserEntity → Role) (db : UserDb) (user : UserEntity) (dbNow : ℤ) :
    UserDb :=
  { db with
    users := db.users ++ [user.saved roleColumn dbNow]
    uuids := db.uuids + 1 }

/-- The update of a user. -/
def saveUser (roleColumn : UserEntity → Role) (db : UserDb) (user : UserEntity) (dbNow : ℤ) :
    UserDb :=
  { db with users := saveRow (·.id) (user.saved roleColumn dbNow) db.users }

/-- A write and its commit : the tables after it, and the answer. -/
def committed (db db' : UserDb) (answer : Session) : CallOutcome → UserDb × Session
  | .acknowledged => (db', answer)
  | .failed _ => (db, .failed .connection)
  | .unacknowledged _ => (db', .failed .connection)

section

variable (roleColumn : UserEntity → Role) (passwords : Passwords) (lower : String → String)

/-- The body with its email in lower case. -/
def RegisterDto.lowered (dto : RegisterDto) : RegisterDto :=
  { dto with email := lower dto.email }

/-- `login`. -/
def LoginDto.lowered (dto : LoginDto) : LoginDto :=
  { dto with email := lower dto.email }

/-- What a step does; a step that is not the next one does nothing. -/
def accountAct : AccountAction → UserDb → Session → UserDb × Session
  | .register dto, db, .idle => (db, .ensuring roles (.register (dto.lowered lower)))
  | .updateRole id role, db, .idle => (db, .ensuring roles (.updateRole id role))
  | .checkRole, db, .ensuring (role :: rest) task =>
    if hasRole db role then (db, .ensuring rest task) else (db, .missing role rest task)
  | .saveRole seen commit, db, .missing role rest task =>
    if hasRole db role then
      if seen then committed db (describeRole db role) (.ensuring rest task) commit
      else (db, .failed .duplicateRole)
    else committed db (insertRole db role) (.ensuring rest task) commit
  | .find, db, .ensuring [] (.register dto) =>
    match findByEmail db dto.email with
    | some _ => (db, .failed (.http (.badRequest "Email already registered")))
    | none => (db, .free dto)
  | .find, db, .ensuring [] (.updateRole id role) =>
    match getUserEntity db id with
    | .error e => (db, .failed (.http e))
    | .ok user => (db, .loaded { user with roleName := role })
  | .insert salt dbNow commit, db, .free dto =>
    let user := newUser passwords salt dto db.uuids dbNow
    if db.users.any (·.email == dto.email) then (db, .failed .duplicateEmail)
    else if !hasRole db (roleColumn user) then (db, .failed .unknownRole)
    else committed db (insertUser roleColumn db user dbNow) (.registered user) commit
  | .save dbNow commit, db, .loaded user =>
    if !hasRole db (roleColumn user) then (db, .failed .unknownRole)
    else committed db (saveUser roleColumn db user dbNow)
      (.updated { user with updatedAt := dbNow }) commit
  | .abort, db, .ensuring _ _ => (db, .failed .connection)
  | .abort, db, .missing _ _ _ => (db, .failed .connection)
  | _, db, session => (db, session)

end

/-- Empty tables and no request in flight. -/
def accountInit : Shared UserDb Session :=
  ⟨⟨[], [], 0⟩, fun _ => .idle⟩

/-! ## What a step can do -/

section

variable {roleColumn : UserEntity → Role} {passwords : Passwords} {lower : String → String}

/-- `db'` has the roles of `db`, and its users. -/
structure AddsRoles (db db' : UserDb) : Prop where
  roles : ∀ role, hasRole db role = true → hasRole db' role = true
  users : db'.users = db.users
  uuids : db'.uuids = db.uuids

theorem hasRole_insertRole (db : UserDb) (role : Role) :
    hasRole (insertRole db role) role = true := by
  simp [hasRole, insertRole]

theorem addsRoles_insertRole (db : UserDb) (role : Role) : AddsRoles db (insertRole db role) := by
  refine ⟨fun other h => ?_, rfl, rfl⟩
  simp only [hasRole] at h
  simp only [hasRole, insertRole, List.any_append, h, Bool.true_or]

theorem addsRoles_describeRole (db : UserDb) (role : Role) :
    AddsRoles db (describeRole db role) := by
  refine ⟨fun other h => ?_, rfl, rfl⟩
  simp only [hasRole, List.any_eq_true, beq_iff_eq] at h
  obtain ⟨row, hrow, rfl⟩ := h
  simp only [hasRole, describeRole, List.any_map, List.any_eq_true, Function.comp_apply, beq_iff_eq]
  refine ⟨row, hrow, ?_⟩
  split_ifs with hname
  · exact hname.symm
  · rfl

variable (roleColumn passwords lower)

/-- What a step of a request can do. -/
inductive AccountMoves (db : UserDb) : AccountAction → Session → UserDb → Session → Prop
  | stay (a : AccountAction) (session : Session) : AccountMoves db a session db session
  | fail (a : AccountAction) (session : Session) {error : AccountError}
      (herror : error ≠ .unknownRole) : AccountMoves db a session db (.failed error)
  | register (dto : RegisterDto) : AccountMoves db (.register dto) .idle db
      (.ensuring roles (.register (dto.lowered lower)))
  | updateRole (id : Uuid) (role : Role) :
      AccountMoves db (.updateRole id role) .idle db (.ensuring roles (.updateRole id role))
  | present {role : Role} (rest : List Role) (task : Task) (hrole : hasRole db role = true) :
      AccountMoves db .checkRole (.ensuring (role :: rest) task) db (.ensuring rest task)
  | absent (role : Role) (rest : List Role) (task : Task) :
      AccountMoves db .checkRole (.ensuring (role :: rest) task) db (.missing role rest task)
  | saveRole (seen : Bool) (commit : CallOutcome) {role : Role} {rest : List Role} {task : Task}
      {db' : UserDb} {answer : Session} (hadds : AddsRoles db db')
      (hrole : hasRole db' role = true)
      (hanswer : answer = .ensuring rest task ∨ answer = .failed .connection) :
      AccountMoves db (.saveRole seen commit) (.missing role rest task) db' answer
  | free {dto : RegisterDto} (h : findByEmail db dto.email = none) :
      AccountMoves db .find (.ensuring [] (.register dto)) db (.free dto)
  | loaded {id : Uuid} (role : Role) {user : UserEntity} (h : getUserEntity db id = .ok user) :
      AccountMoves db .find (.ensuring [] (.updateRole id role)) db
        (.loaded { user with roleName := role })
  | insert (salt : String) (dbNow : ℤ) (commit : CallOutcome) {dto : RegisterDto}
      {answer : Session} (hnew : db.users.any (·.email == dto.email) = false)
      (hanswer : answer = .registered (newUser passwords salt dto db.uuids dbNow) ∨
        answer = .failed .connection) :
      AccountMoves db (.insert salt dbNow commit) (.free dto)
        (insertUser roleColumn db (newUser passwords salt dto db.uuids dbNow) dbNow) answer
  | save (dbNow : ℤ) (commit : CallOutcome) {user : UserEntity} {answer : Session}
      (hanswer : answer = .updated { user with updatedAt := dbNow } ∨
        answer = .failed .connection) :
      AccountMoves db (.save dbNow commit) (.loaded user) (saveUser roleColumn db user dbNow)
        answer
  | unknown (a : AccountAction) (role : Role) {session : Session}
      (hsession : (∃ dto, session = .free dto) ∨ ∃ user, session = .loaded user)
      (hrole : hasRole db role = false) :
      AccountMoves db a session db (.failed .unknownRole)

theorem accountAct_moves (a : AccountAction) (db : UserDb) (session : Session) :
    AccountMoves roleColumn passwords lower db a session
      (accountAct roleColumn passwords lower a db session).1
      (accountAct roleColumn passwords lower a db session).2 := by
  unfold accountAct
  split
  · exact .register _
  · exact .updateRole _ _
  · split_ifs with hrole
    · exact .present _ _ hrole
    · exact .absent _ _ _
  · rename_i seen commit role rest task
    split_ifs with hrole hseen
    · have hadds := addsRoles_describeRole db role
      cases commit with
      | acknowledged => exact .saveRole _ _ hadds (hadds.roles _ hrole) (Or.inl rfl)
      | failed message => exact .fail _ _ (by simp)
      | unacknowledged message => exact .saveRole _ _ hadds (hadds.roles _ hrole) (Or.inr rfl)
    · exact .fail _ _ (by simp)
    · have hadds := addsRoles_insertRole db role
      cases commit with
      | acknowledged => exact .saveRole _ _ hadds (hasRole_insertRole db role) (Or.inl rfl)
      | failed message => exact .fail _ _ (by simp)
      | unacknowledged message =>
        exact .saveRole _ _ hadds (hasRole_insertRole db role) (Or.inr rfl)
  · split
    · exact .fail _ _ (by simp)
    · rename_i hfree
      exact .free hfree
  · split
    · exact .fail _ _ (by simp)
    · rename_i huser
      exact .loaded _ huser
  · rename_i salt dbNow commit dto
    dsimp only
    split_ifs with hemail hrole
    · exact .fail _ _ (by simp)
    · exact .unknown _ _ (Or.inl ⟨dto, rfl⟩) (by simpa using hrole)
    · cases commit with
      | acknowledged => exact .insert _ _ _ (by simpa using hemail) (Or.inl rfl)
      | failed message => exact .fail _ _ (by simp)
      | unacknowledged message => exact .insert _ _ _ (by simpa using hemail) (Or.inr rfl)
  · rename_i dbNow commit user
    split_ifs with hrole
    · exact .unknown _ _ (Or.inr ⟨user, rfl⟩) (by simpa using hrole)
    · cases commit with
      | acknowledged => exact .save _ _ (Or.inl rfl)
      | failed message => exact .fail _ _ (by simp)
      | unacknowledged message => exact .save _ _ (Or.inr rfl)
  · exact .fail _ _ (by simp)
  · exact .fail _ _ (by simp)
  · exact .stay _ _

end

/-! ## With nothing between -/

section

variable (roleColumn : UserEntity → Role) (passwords : Passwords) (lower : String → String)

/-- The steps that look for the roles and add those that are missing. -/
def ensureSteps (db : UserDb) : List Role → List AccountAction
  | [] => []
  | role :: rest =>
    if hasRole db role then .checkRole :: ensureSteps db rest
    else .checkRole :: .saveRole false .acknowledged :: ensureSteps (insertRole db role) rest

/-- The roles that `ensureDefaultRoles` adds, of those still to look for. -/
def addMissing (db : UserDb) (rest : List Role) : UserDb :=
  { db with
    roles := db.roles ++ (rest.filter fun role => !hasRole db role).map
      fun role => ⟨role, defaultRoles role⟩ }

theorem mem_roles (role : Role) : role ∈ roles := by
  cases role <;> decide

theorem addMissing_roles (db : UserDb) : addMissing db roles = ensureDefaultRoles db :=
  rfl

theorem addMissing_of_hasRole {db : UserDb} {role : Role} (h : hasRole db role = true)
    (rest : List Role) : addMissing db (role :: rest) = addMissing db rest := by
  rw [addMissing, List.filter_cons_of_neg (by simp [h]), addMissing]

theorem addMissing_insertRole {db : UserDb} {role : Role} (h : hasRole db role = false)
    {rest : List Role} (hrole : role ∉ rest) :
    addMissing (insertRole db role) rest = addMissing db (role :: rest) := by
  have hother : ∀ other ∈ rest, (!hasRole (insertRole db role) other) = !hasRole db other := by
    intro other hother
    have hne : role ≠ other := fun heq => hrole (heq ▸ hother)
    simp [hasRole, insertRole, hne]
  rw [addMissing, addMissing, List.filter_congr hother, List.filter_cons_of_pos (by simp [h])]
  simp [insertRole]

/-- Looking for the roles one after another adds those that are missing. -/
theorem run_ensureSteps {p : ℕ} {task : Task} {rest : List Role} (hnodup : rest.Nodup)
    {s : Shared UserDb Session} (hp : s.requests p = .ensuring rest task) :
    let t := run (Shared.step (accountAct roleColumn passwords lower)) s
      ((ensureSteps s.db rest).map fun a => (p, a))
    t.db = addMissing s.db rest ∧ t.requests p = .ensuring [] task := by
  induction rest generalizing s with
  | nil => exact ⟨by simp [ensureSteps, addMissing], hp⟩
  | cons role rest ih =>
    obtain ⟨hrole, hnodup⟩ := List.nodup_cons.mp hnodup
    unfold ensureSteps
    split_ifs with hhas
    · have hnext : accountAct roleColumn passwords lower .checkRole s.db (s.requests p) =
          (s.db, .ensuring rest task) := by
        simp [hp, accountAct, hhas]
      have hdb : (Shared.step (accountAct roleColumn passwords lower) s (p, .checkRole)).db =
          s.db := congrArg Prod.fst hnext
      have hih := ih hnodup (s := Shared.step (accountAct roleColumn passwords lower) s
        (p, .checkRole)) (by rw [Shared.step_requests_self, hnext])
      rw [hdb] at hih
      rw [List.map_cons, run_cons, addMissing_of_hasRole hhas]
      exact hih
    · have hmissing : accountAct roleColumn passwords lower .checkRole s.db (s.requests p) =
          (s.db, .missing role rest task) := by
        simp [hp, accountAct, hhas]
      have hsaved : accountAct roleColumn passwords lower (.saveRole false .acknowledged) s.db
          (.missing role rest task) = (insertRole s.db role, .ensuring rest task) := by
        simp [accountAct, hhas, committed]
      have hih := ih hnodup (s := run (Shared.step (accountAct roleColumn passwords lower)) s
        [(p, .checkRole), (p, .saveRole false .acknowledged)]) (by
          simp only [run_cons, run_nil, Shared.step_db, Shared.step_requests_self, hmissing,
            hsaved])
      have hdb : (run (Shared.step (accountAct roleColumn passwords lower)) s
          [(p, .checkRole), (p, .saveRole false .acknowledged)]).db = insertRole s.db role := by
        simp only [run_cons, run_nil, Shared.step_db, Shared.step_requests_self, hmissing, hsaved]
      rw [hdb, addMissing_insertRole (by simpa using hhas) hrole] at hih
      exact hih

theorem hasRole_ensureDefaultRoles (db : UserDb) (role : Role) :
    hasRole (ensureDefaultRoles db) role = true := by
  cases h : hasRole db role with
  | true =>
    rw [hasRole] at h
    rw [hasRole, ensureDefaultRoles, List.any_append, h, Bool.true_or]
  | false =>
    have hmem : role ∈ roles.filter fun role => !hasRole db role :=
      List.mem_filter.mpr ⟨mem_roles role, by simp [h]⟩
    rw [hasRole, List.any_eq_true]
    exact ⟨_, List.mem_append_right _ (List.mem_map_of_mem hmem), by simp⟩

/-- What `register` returns at a time. -/
def Session.registration (now : ℤ) : Session → Option (Except HttpException (Jwt × UserResponse))
  | .registered user => some (.ok (signJwt user now, toUserResponse user))
  | .failed (.http e) => some (.error e)
  | _ => none

/-- What `updateRole` returns. -/
def Session.update : Session → Option (Except HttpException UserResponse)
  | .updated user => some (.ok (toUserResponse user))
  | .failed (.http e) => some (.error e)
  | _ => none

/-- The steps of a request with nothing between them. -/
def requestSteps (db : UserDb) (first last : AccountAction) : List AccountAction :=
  first :: ensureSteps db roles ++ [.find, last]

/-- A request after its first step and the roles. -/
theorem run_requestSteps {s : Shared UserDb Session} {p : ℕ} {first : AccountAction} {task : Task}
    (hfirst : accountAct roleColumn passwords lower first s.db (s.requests p) =
      (s.db, .ensuring roles task)) (last : AccountAction) :
    ∃ u : Shared UserDb Session, u.db = ensureDefaultRoles s.db ∧
      u.requests p = .ensuring [] task ∧
      run (Shared.step (accountAct roleColumn passwords lower)) s
          ((requestSteps s.db first last).map fun a => (p, a)) =
        run (Shared.step (accountAct roleColumn passwords lower)) u [(p, .find), (p, last)] := by
  have hfirst' : (Shared.step (accountAct roleColumn passwords lower) s (p, first)).requests p =
      .ensuring roles task := by
    rw [Shared.step_requests_self, hfirst]
  have hensure := run_ensureSteps roleColumn passwords lower (by decide) hfirst'
  rw [Shared.step_db, hfirst] at hensure
  refine ⟨_, hensure.1, hensure.2, ?_⟩
  simp [requestSteps]

/-- The steps of a registration with nothing between them are `register`. -/
theorem run_register (s : Shared UserDb Session) (p : ℕ) (hp : s.requests p = .idle)
    (body : RegisterDto) (salt : String) (clock : Clock) :
    let t := run (Shared.step (accountAct roleColumn passwords lower)) s
      ((requestSteps s.db (.register body) (.insert salt clock.dbNow .acknowledged)).map
        fun a => (p, a))
    t.db = (register roleColumn passwords salt s.db (body.lowered lower) clock).2 ∧
      (t.requests p).registration clock.now =
        some (register roleColumn passwords salt s.db (body.lowered lower) clock).1 := by
  intro t
  have hfirst : accountAct roleColumn passwords lower (.register body) s.db (s.requests p) =
      (s.db, .ensuring roles (.register (body.lowered lower))) := by
    rw [hp]
    rfl
  obtain ⟨u, hdb, hu, ht⟩ := run_requestSteps roleColumn passwords lower hfirst
    (.insert salt clock.dbNow .acknowledged)
  simp only [t, ht, run_cons, run_nil, Shared.step_db, Shared.step_requests_self, hu]
  simp only [accountAct, register, hdb]
  cases hfind : findByEmail (ensureDefaultRoles s.db) (body.lowered lower).email with
  | some user => exact ⟨rfl, rfl⟩
  | none =>
    have hnew : (ensureDefaultRoles s.db).users.any (·.email == (body.lowered lower).email) =
        false := by
      simpa [findByEmail] using hfind
    simp only [hnew, hasRole_ensureDefaultRoles]
    exact ⟨rfl, rfl⟩

/-- The steps of a role change with nothing between them are `updateRole`. -/
theorem run_updateRole (s : Shared UserDb Session) (p : ℕ) (hp : s.requests p = .idle) (id : Uuid)
    (role : Role) (dbNow : ℤ) :
    let t := run (Shared.step (accountAct roleColumn passwords lower)) s
      ((requestSteps s.db (.updateRole id role) (.save dbNow .acknowledged)).map fun a => (p, a))
    t.db = (updateRole roleColumn s.db id role dbNow).2 ∧
      (t.requests p).update = some (updateRole roleColumn s.db id role dbNow).1 := by
  intro t
  have hfirst : accountAct roleColumn passwords lower (.updateRole id role) s.db (s.requests p) =
      (s.db, .ensuring roles (.updateRole id role)) := by
    rw [hp]
    rfl
  obtain ⟨u, hdb, hu, ht⟩ := run_requestSteps roleColumn passwords lower hfirst
    (.save dbNow .acknowledged)
  simp only [t, ht, run_cons, run_nil, Shared.step_db, Shared.step_requests_self, hu]
  simp only [accountAct, updateRole, hdb]
  cases getUserEntity (ensureDefaultRoles s.db) id with
  | error e => exact ⟨rfl, rfl⟩
  | ok user =>
    simp only [hasRole_ensureDefaultRoles]
    exact ⟨rfl, rfl⟩

end

/-! ## The invariant -/

/-- What a user keeps from its registration. -/
structure Account where
  id : Uuid
  email : String
  fullName : String
  passwordHash : String
  createdAt : ℤ
  deriving DecidableEq

/-- The account in a row of `users`. -/
def UserRow.account (row : UserRow) : Account :=
  ⟨row.id, row.email, row.fullName, row.passwordHash, row.createdAt⟩

/-- The accounts of the table, in its order. -/
def accounts (db : UserDb) : List Account :=
  db.users.map (·.account)

/-- The default roles are there. -/
def HasRoles (db : UserDb) : Prop :=
  ∀ role, hasRole db role = true

/-- What a request relies on of the tables, and what became of what it answered. -/
def Session.Sound (db : UserDb) : Session → Prop
  | .idle => True
  | .ensuring rest _ => ∀ role ∉ rest, hasRole db role = true
  | .missing role rest _ => ∀ other ∉ role :: rest, hasRole db other = true
  | .free _ => HasRoles db
  | .loaded user => HasRoles db ∧ user.account ∈ accounts db
  | .registered user | .updated user => user.account ∈ accounts db
  | .failed error => error ≠ .unknownRole

section

variable (passwords : Passwords) (lower : String → String) (all : List (ℕ × AccountAction))

/-- Process `p` was sent the body, with the email in any case. -/
def Sent (p : ℕ) (dto : RegisterDto) : Prop :=
  ∃ body, (p, .register body) ∈ all ∧ dto = body.lowered lower

/-- What a request holds of its body. -/
def Session.Own (p : ℕ) : Session → Prop
  | .ensuring _ (.register dto) | .missing _ _ (.register dto) | .free dto => Sent lower all p dto
  | .registered user =>
    ∃ dto salt id dbNow commit, Sent lower all p dto ∧ (p, .insert salt dbNow commit) ∈ all ∧
      user = newUser passwords salt dto id dbNow
  | _ => True

/-- A request of the run registered the account, and inserted it. -/
def Registered (account : Account) : Prop :=
  ∃ p dto salt dbNow commit, Sent lower all p dto ∧ (p, .insert salt dbNow commit) ∈ all ∧
    account.email = dto.email ∧ account.fullName = dto.fullName ∧
    account.passwordHash = passwords.hash salt dto.password ∧ account.createdAt = dbNow

/-- Ids and emails are unique, and every account was registered. -/
structure AccountsInv (db : UserDb) : Prop where
  keyed : Keyed (·.id) db.users db.uuids
  emails : (db.users.map (·.email)).Nodup
  registered : ∀ account ∈ accounts db, Registered passwords lower all account

end

/-- No role and no account goes away, and none changes. -/
structure Keeps (db db' : UserDb) : Prop where
  roles : ∀ role, hasRole db role = true → hasRole db' role = true
  accounts : accounts db <+: accounts db'

theorem Keeps.refl (db : UserDb) : Keeps db db :=
  ⟨fun _ h => h, List.prefix_rfl⟩

theorem AddsRoles.keeps {db db' : UserDb} (h : AddsRoles db db') : Keeps db db' where
  roles := h.roles
  accounts := by rw [UserService.accounts, UserService.accounts, h.users]

theorem Session.Sound.keeps {db db' : UserDb} {session : Session} (h : session.Sound db)
    (hkeeps : Keeps db db') : session.Sound db' := by
  cases session with
  | idle => trivial
  | ensuring rest task => exact fun role hrole => hkeeps.roles role (h role hrole)
  | missing role rest task => exact fun other hother => hkeeps.roles other (h other hother)
  | free dto => exact fun role => hkeeps.roles role (h role)
  | loaded user => exact ⟨fun role => hkeeps.roles role (h.1 role), hkeeps.accounts.subset h.2⟩
  | registered user => exact hkeeps.accounts.subset h
  | updated user => exact hkeeps.accounts.subset h
  | failed error => exact h

theorem getUserEntity_ok {db : UserDb} {id : Uuid} {user : UserEntity}
    (h : getUserEntity db id = .ok user) : ∃ row ∈ db.users, user = row.load := by
  unfold getUserEntity findById at h
  cases hfind : db.users.find? (·.id == id) with
  | none => simp [hfind] at h
  | some row =>
    obtain rfl : row.load = user := by simpa [hfind, pure, Except.pure] using h
    exact ⟨row, List.mem_of_find?_eq_some hfind, rfl⟩

section

variable {roleColumn : UserEntity → Role} {passwords : Passwords} {lower : String → String}
  {all : List (ℕ × AccountAction)} {db db' : UserDb} {a : AccountAction}
  {session session' : Session} {p : ℕ}

theorem AddsRoles.inv (h : AddsRoles db db') (hinv : AccountsInv passwords lower all db) :
    AccountsInv passwords lower all db' where
  keyed := by
    rw [h.users, h.uuids]
    exact hinv.keyed
  emails := by
    rw [h.users]
    exact hinv.emails
  registered := by
    rw [accounts, h.users]
    exact hinv.registered

/-- A step leaves a request with its own body. -/
theorem AccountMoves.own (h : AccountMoves roleColumn passwords lower db a session db' session')
    (ha : (p, a) ∈ all) (hown : session.Own passwords lower all p) :
    session'.Own passwords lower all p := by
  cases h with
  | stay => exact hown
  | fail => trivial
  | register dto => exact ⟨dto, ha, rfl⟩
  | updateRole => trivial
  | present rest task =>
    cases task with
    | register dto => exact hown
    | updateRole id role => trivial
  | absent role rest task =>
    cases task with
    | register dto => exact hown
    | updateRole id role => trivial
  | @saveRole seen commit role rest task db' answer hadds hrole hanswer =>
    rcases hanswer with rfl | rfl
    · cases task with
      | register dto => exact hown
      | updateRole id role => trivial
    · trivial
  | free => exact hown
  | loaded => trivial
  | @insert salt dbNow commit dto answer hnew hanswer =>
    rcases hanswer with rfl | rfl
    · exact ⟨dto, salt, db.uuids, dbNow, commit, hown, ha, rfl⟩
    · trivial
  | save dbNow commit hanswer =>
    rcases hanswer with rfl | rfl <;> trivial
  | unknown => trivial

/-- The update of a user changes no account. -/
theorem accounts_saveUser (roleColumn : UserEntity → Role)
    (hkeyed : Keyed (·.id) db.users db.uuids) {user : UserEntity} (h : user.account ∈ accounts db)
    (dbNow : ℤ) :
    accounts (saveUser roleColumn db user dbNow) = accounts db := by
  have hid : ∀ a b : UserRow, a.account = b.account → a.id = b.id :=
    fun _ _ heq => congrArg Account.id heq
  have hmem : (user.saved roleColumn dbNow).account ∈ accounts db := h
  exact map_saveRow_of_mem hid hkeyed.nodup hmem

/-- A step keeps the tables, what they hold, and its request sound. -/
theorem AccountMoves.guarantees
    (h : AccountMoves roleColumn passwords lower db a session db' session')
    (ha : (p, a) ∈ all) (hinv : AccountsInv passwords lower all db)
    (hown : session.Own passwords lower all p) (hsound : session.Sound db) :
    Shared.Guarantees (AccountsInv passwords lower all) (fun db q => q.Sound db) Keeps db
      (db', session') := by
  cases h with
  | stay => exact ⟨hinv, Keeps.refl db, hsound⟩
  | fail a session herror => exact ⟨hinv, Keeps.refl db, herror⟩
  | register dto => exact ⟨hinv, Keeps.refl db, fun role h => absurd (mem_roles role) h⟩
  | updateRole => exact ⟨hinv, Keeps.refl db, fun role h => absurd (mem_roles role) h⟩
  | @present role rest task hrole =>
    refine ⟨hinv, Keeps.refl db, fun other hother => ?_⟩
    rcases eq_or_ne other role with rfl | hne
    · exact hrole
    · exact hsound other (by simp [hne, hother])
  | absent role rest task => exact ⟨hinv, Keeps.refl db, hsound⟩
  | @saveRole seen commit role rest task db' answer hadds hrole hanswer =>
    refine ⟨hadds.inv hinv, hadds.keeps, ?_⟩
    rcases hanswer with rfl | rfl
    · intro other hother
      rcases eq_or_ne other role with rfl | hne
      · exact hrole
      · exact hadds.roles other (hsound other (by simp [hne, hother]))
    · exact nofun
  | free => exact ⟨hinv, Keeps.refl db, fun role => hsound role List.not_mem_nil⟩
  | @loaded id role user huser =>
    obtain ⟨row, hrow, rfl⟩ := getUserEntity_ok huser
    exact ⟨hinv, Keeps.refl db, fun role => hsound role List.not_mem_nil,
      List.mem_map.mpr ⟨row, hrow, rfl⟩⟩
  | @insert salt dbNow commit dto answer hnew hanswer =>
    have haccounts : accounts (insertUser roleColumn db
        (newUser passwords salt dto db.uuids dbNow) dbNow) =
          accounts db ++ [(newUser passwords salt dto db.uuids dbNow).account] :=
      List.map_append
    refine ⟨⟨hinv.keyed.insert le_rfl (Nat.lt_succ_self _), ?_, ?_⟩, ⟨fun _ h => h, ?_⟩, ?_⟩
    · have hfree : dto.email ∉ db.users.map (·.email) := by simpa using hnew
      rw [insertUser, List.map_append, List.nodup_append]
      refine ⟨hinv.emails, List.nodup_singleton _, fun email hemail other hother => ?_⟩
      obtain rfl : other = dto.email := by simpa [UserEntity.saved, newUser] using hother
      exact fun heq => hfree (heq ▸ hemail)
    · intro account haccount
      rw [haccounts, List.mem_append, List.mem_singleton] at haccount
      rcases haccount with haccount | rfl
      · exact hinv.registered account haccount
      · exact ⟨p, dto, salt, dbNow, commit, hown, ha, rfl, rfl, rfl, rfl⟩
    · exact haccounts ▸ List.prefix_append _ _
    · rcases hanswer with rfl | rfl
      · change _ ∈ accounts (insertUser roleColumn db _ dbNow)
        rw [haccounts]
        exact List.mem_append_right _ (List.mem_singleton_self _)
      · exact nofun
  | @save dbNow commit user answer hanswer =>
    have haccounts := accounts_saveUser roleColumn hinv.keyed hsound.2 dbNow
    obtain ⟨row, hrow, heq⟩ := List.mem_map.mp hsound.2
    have hid : user.id < db.uuids := by
      obtain heq : row.id = user.id := congrArg Account.id heq
      exact heq ▸ hinv.keyed.fresh row hrow
    refine ⟨⟨hinv.keyed.saveRow hid le_rfl, ?_, haccounts ▸ hinv.registered⟩,
      ⟨fun _ h => h, haccounts ▸ List.prefix_rfl⟩, ?_⟩
    · have hemails : ∀ db : UserDb, db.users.map (·.email) = (accounts db).map (·.email) :=
        fun db => by simp [accounts, UserRow.account]
      rw [hemails, haccounts, ← hemails]
      exact hinv.emails
    · rcases hanswer with rfl | rfl
      · change user.account ∈ accounts (saveUser roleColumn db user dbNow)
        rw [haccounts]
        exact hsound.2
      · exact nofun
  | @unknown a role session hsession hrole =>
    have hroles : HasRoles db := by
      rcases hsession with ⟨dto, rfl⟩ | ⟨user, rfl⟩
      · exact hsound
      · exact hsound.1
    exact absurd (hroles role) (by simp [hrole])

end

/-! ## Whole runs -/

section

variable (roleColumn : UserEntity → Role) (passwords : Passwords) (lower : String → String)

/-- A run of requests, from empty tables. -/
def accountRun (as : List (ℕ × AccountAction)) : Shared UserDb Session :=
  run (Shared.step (accountAct roleColumn passwords lower)) accountInit as

theorem accountRun_concat (as : List (ℕ × AccountAction)) (pa : ℕ × AccountAction) :
    accountRun roleColumn passwords lower (as ++ [pa]) =
      Shared.step (accountAct roleColumn passwords lower)
        (accountRun roleColumn passwords lower as) pa :=
  run_append _ _ as [pa]

/-- A request holds its own body at any moment of a run. -/
theorem own_run {pre as : List (ℕ × AccountAction)} (hpre : pre <+: as) (p : ℕ) :
    ((accountRun roleColumn passwords lower pre).requests p).Own passwords lower as p := by
  refine Shared.run_requests_invariant (s := accountInit)
    (I := fun p q => Session.Own passwords lower as p q)
    (fun p a db session ha hown => ?_) (fun _ => trivial) p
  exact (accountAct_moves roleColumn passwords lower a db session).own (hpre.subset ha) hown

/-- The tables are in order at any moment of a run, and so is every request. -/
theorem safe_run (as bs : List (ℕ × AccountAction)) :
    (accountRun roleColumn passwords lower as).Safe (AccountsInv passwords lower (as ++ bs))
      fun db q => q.Sound db := by
  refine run_invariant_of_prefixes ⟨⟨Keyed.nil, List.nodup_nil, nofun⟩, fun _ => trivial⟩
    fun pre pa hpre hsafe => ?_
  have hall : pre ++ [pa] <+: as ++ bs := hpre.trans (List.prefix_append as bs)
  have hpre : pre <+: as ++ bs := (List.prefix_append pre [pa]).trans hall
  exact hsafe.step ((accountAct_moves roleColumn passwords lower pa.2 _ _).guarantees
    (hall.subset (by simp)) hsafe.store (own_run _ _ _ hpre pa.1) (hsafe.sound pa.1))
    fun _ _ _ hkeeps hsound => hsound.keeps hkeeps

/-- No account changes or goes away as a run goes on. -/
theorem keeps_run (as bs : List (ℕ × AccountAction)) :
    Keeps (accountRun roleColumn passwords lower as).db
      (accountRun roleColumn passwords lower (as ++ bs)).db := by
  induction bs using List.reverseRecOn with
  | nil =>
    rw [List.append_nil]
    exact Keeps.refl _
  | append_singleton bs pa ih =>
    have hsafe := safe_run roleColumn passwords lower (as ++ bs) [pa]
    have hstep := ((accountAct_moves roleColumn passwords lower pa.2 _ _).guarantees
      (List.mem_append_right _ (List.mem_singleton_self pa)) hsafe.store
      (own_run _ _ _ (List.prefix_append _ [pa]) pa.1) (hsafe.sound pa.1)).rely
    rw [← List.append_assoc, accountRun_concat]
    exact ⟨fun role h => hstep.roles role (ih.roles role h), ih.accounts.trans hstep.accounts⟩

variable {roleColumn passwords lower}

/-- Whoever was answered has its account from then on. -/
theorem account_of_answer {as : List (ℕ × AccountAction)} {p : ℕ} {user : UserEntity}
    (h : (accountRun roleColumn passwords lower as).requests p = .registered user ∨
      (accountRun roleColumn passwords lower as).requests p = .updated user)
    (bs : List (ℕ × AccountAction)) :
    user.account ∈ accounts (accountRun roleColumn passwords lower (as ++ bs)).db := by
  have hsound := (safe_run roleColumn passwords lower as bs).sound p
  refine (keeps_run _ _ _ as bs).accounts.subset ?_
  rcases h with h | h <;> rw [h] at hsound <;> exact hsound

/-- A user keeps its id, email, name, hash and time of creation. At any two moments of a run, emails
are unique at the later one, every user has the email, the name, the hash and the time of a request
that registered it, and those of the earlier moment come first and are the same in all this; no
request ever names a role that is not there; and who was answered is in the table with all this at
the later moment. -/
theorem accounts_kept (roleColumn : UserEntity → Role) (passwords : Passwords)
    (lower : String → String) (as bs : List (ℕ × AccountAction)) :
    let s := accountRun roleColumn passwords lower as
    let t := accountRun roleColumn passwords lower (as ++ bs)
    (t.db.users.map (·.email)).Nodup ∧
      (∀ account ∈ accounts t.db, Registered passwords lower (as ++ bs) account) ∧
      accounts s.db <+: accounts t.db ∧
      (∀ p, ∀ error, t.requests p = .failed error → error ≠ .unknownRole) ∧
      ∀ p user, s.requests p = .registered user ∨ s.requests p = .updated user →
        user.account ∈ accounts t.db := by
  intro s t
  have ht := safe_run roleColumn passwords lower (as ++ bs) []
  rw [List.append_nil] at ht
  refine ⟨ht.store.emails, ht.store.registered, (keeps_run _ _ _ as bs).accounts,
    fun p error herror => ?_, fun p user hanswer => account_of_answer hanswer bs⟩
  have hsound := ht.sound p
  rwa [herror] at hsound

/-- The row of an email. -/
theorem findByEmail_of_mem {db : UserDb} (hemails : (db.users.map (·.email)).Nodup)
    {row : UserRow} (hrow : row ∈ db.users) : findByEmail db row.email = some row.load := by
  unfold findByEmail
  cases hfind : db.users.find? (·.email == row.email) with
  | none => exact absurd (List.find?_eq_none.mp hfind row hrow) (by simp)
  | some found =>
    have hemail : found.email = row.email := by simpa using List.find?_some hfind
    rw [List.inj_on_of_nodup_map hemails (List.mem_of_find?_eq_some hfind) hrow hemail,
      Option.map_some]

/-- A login is decided by the password of the user with the email. -/
theorem login_of_findByEmail {db : UserDb} {dto : LoginDto} {user : UserEntity} {now : ℤ}
    (h : findByEmail db dto.email = some user) : login passwords db dto now =
      if passwords.compare dto.password user.passwordHash then
        .ok (signJwt user now, toUserResponse user)
      else .error (.unauthorized "Invalid credentials") := by
  simp only [login, h]
  cases passwords.compare dto.password user.passwordHash <;> rfl

/-- Whoever was told to be registered can log in at any later moment, with its email in any
case : with its own password, for its own id, and with no other that the hash refuses. -/
theorem login_registered (roleColumn : UserEntity → Role) (passwords : Passwords)
    (lower : String → String) (as bs : List (ℕ × AccountAction)) (p : ℕ) (user : UserEntity)
    (hanswer : (accountRun roleColumn passwords lower as).requests p = .registered user) :
    ∃ body salt dbNow commit row, (p, .register body) ∈ as ∧
      (p, .insert salt dbNow commit) ∈ as ∧
      row ∈ (accountRun roleColumn passwords lower (as ++ bs)).db.users ∧ row.id = user.id ∧
      row.email = lower body.email ∧ row.fullName = body.fullName ∧
      ∀ dto : LoginDto, lower dto.email = lower body.email → ∀ now,
        login passwords (accountRun roleColumn passwords lower (as ++ bs)).db (dto.lowered lower)
            now =
          if passwords.compare dto.password (passwords.hash salt body.password) then
            .ok (signJwt row.load now, toUserResponse row.load)
          else .error (.unauthorized "Invalid credentials") := by
  have hkept := account_of_answer (Or.inl hanswer) bs
  have hsafe := safe_run roleColumn passwords lower (as ++ bs) []
  have hown := own_run roleColumn passwords lower (List.prefix_refl as) p
  rw [hanswer] at hown
  obtain ⟨_, salt, id, dbNow, commit, ⟨body, hbody, rfl⟩, hinsert, rfl⟩ := hown
  obtain ⟨row, hrow, haccount⟩ := List.mem_map.mp hkept
  have hemail : row.email = lower body.email := congrArg Account.email haccount
  have hhash : row.passwordHash = passwords.hash salt body.password :=
    congrArg Account.passwordHash haccount
  refine ⟨body, salt, dbNow, commit, row, hbody, hinsert, hrow, congrArg Account.id haccount,
    hemail, congrArg Account.fullName haccount, fun dto hdto now => ?_⟩
  have hfind := findByEmail_of_mem hsafe.store.emails hrow
  rw [hemail, ← hdto] at hfind
  rw [login_of_findByEmail hfind]
  change (if passwords.compare dto.password row.passwordHash = true then _ else _) = _
  rw [hhash]

/-- Two requests register at once. -/
def registeredTwice : List (ℕ × AccountAction) :=
  [(0, .register ⟨"ada@example.com", "Password123!", "Ada"⟩),
    (1, .register ⟨"ada@example.com", "Password456!", "Ida"⟩)] ++
  ((ensureSteps accountInit.db roles).map fun a => (0, a)) ++
  List.replicate 5 (1, .checkRole) ++
  [(0, .find), (1, .find), (1, .insert "s" 0 .acknowledged), (0, .insert "t" 0 .acknowledged)]

/-- The second to save is refused, and the first can log in. -/
theorem login_registered_twice : ∃ body salt dbNow commit row,
    (1, .register body) ∈ registeredTwice ∧ (1, .insert salt dbNow commit) ∈ registeredTwice ∧
    row ∈ (accountRun (·.roleName) plainPasswords id (registeredTwice ++ [])).db.users ∧
    row.id = 0 ∧ row.email = id body.email ∧ row.fullName = body.fullName ∧
    ∀ dto : LoginDto, id dto.email = id body.email → ∀ now,
      login plainPasswords (accountRun (·.roleName) plainPasswords id (registeredTwice ++ [])).db
          (dto.lowered id) now =
        if plainPasswords.compare dto.password (plainPasswords.hash salt body.password) then
          .ok (signJwt row.load now, toUserResponse row.load)
        else .error (.unauthorized "Invalid credentials") :=
  login_registered (·.roleName) plainPasswords id registeredTwice [] 1
    ⟨⟨0, "ada@example.com", "Ida", "Password456!", .student, 0, 0⟩, none⟩ rfl

end

end Qoms.UserService
