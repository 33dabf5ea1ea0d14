import Qoms.Database
import Qoms.Domain
import Qoms.Guards
import Qoms.Table

/-!
# The user service

`UserService` of `services/user-service`, and the tokens it signs. `register` gives every user
the role `student`, `updateRole` saves another, and `login` and `register` sign a token with the
role of the moment, which expires after seven days.

An entity that was loaded holds the role twice, in its column and as the relation loaded with
it. What `save` writes for the two is the object mapper's matter : `roleColumn`. Passwords are
hashed and compared by a library (`Passwords`), each hash with a salt of its own. Emails come in
lower case, as both handlers lower them first.

`jwt.sign` counts in whole seconds. A token is its claims with the seconds between which it is
valid; its text is not modelled, and that it is signed means that it is among those that
`signJwt` made.
-/

set_option autoImplicit false

namespace Qoms

/-- What the user service and the gateway throw : an exception of the framework. -/
inductive HttpException
  | badRequest (message : String)
  | unauthorized (message : String)
  | forbidden (message : String)
  | notFound (message : String)
  | tooManyRequests (message : String) (retryAfter : ℤ)
  deriving DecidableEq, Repr

/-- `ROLES`, in their order. -/
def roles : List Role :=
  [.student, .employee, .diningAdmin, .coworkingAdmin, .systemAdmin]

/-- A role as it is written. -/
def roleText : Role → String
  | .student => "student"
  | .employee => "employee"
  | .diningAdmin => "dining_admin"
  | .coworkingAdmin => "coworking_admin"
  | .systemAdmin => "system_admin"

/-- `JwtClaims`. -/
structure JwtClaims where
  sub : Uuid
  email : String
  role : Role
  deriving DecidableEq, Repr

/-- A token, with the seconds at which it was issued and expires. -/
structure Jwt where
  claims : JwtClaims
  iat : ℤ
  exp : ℤ
  deriving DecidableEq, Repr

/-- `Math.floor(Date.now() / 1000)`. -/
def clockTimestamp (now : ℤ) : ℤ :=
  now / 1000

/-- `jwt.verify`, where `signed` are the tokens signed with the secret. -/
def verify (signed : List Jwt) (token : Jwt) (now : ℤ) : Option JwtClaims :=
  if token ∈ signed ∧ clockTimestamp now < token.exp then some token.claims else none

theorem verify_eq_some {signed : List Jwt} {token : Jwt} {now : ℤ} {claims : JwtClaims}
    (h : verify signed token now = some claims) :
    token ∈ signed ∧ clockTimestamp now < token.exp ∧ token.claims = claims := by
  unfold verify at h
  split_ifs at h with hvalid
  exact ⟨hvalid.1, hvalid.2, Option.some_inj.mp h⟩

namespace UserService

/-! ## Data -/

/-- `RoleEntity`. -/
structure RoleEntity where
  name : Role
  description : String
  deriving DecidableEq, Repr

/-- A row of `users`. -/
structure UserRow where
  id : Uuid
  email : String
  fullName : String
  passwordHash : String
  roleName : Role
  createdAt : ℤ
  updatedAt : ℤ
  deriving DecidableEq, Repr

/-- `UserEntity` in memory : the row's columns, and the relation `role` if it was loaded. -/
structure UserEntity extends UserRow where
  role : Option Role
  deriving DecidableEq, Repr

/-- The service's schema, and how many UUIDs were drawn. -/
structure UserDb where
  roles : List RoleEntity
  users : List UserRow
  uuids : ℕ
  deriving Repr

/-- `RegisterDto`. -/
structure RegisterDto where
  email : String
  password : String
  fullName : String

/-- `LoginDto`. -/
structure LoginDto where
  email : String
  password : String

/-- What `toUserResponse` returns. -/
structure UserResponse where
  id : Uuid
  email : String
  fullName : String
  role : Role
  createdAt : ℤ
  updatedAt : ℤ
  deriving DecidableEq, Repr

/-- `bcryptjs` : a hash takes a salt that is drawn for it. -/
structure Passwords where
  hash : (salt password : String) → String
  compare : String → String → Bool

/-! ## Reading and saving users -/

/-- The entity that `findOne` loads, with its eager relation. -/
def UserRow.load (row : UserRow) : UserEntity :=
  { row with role := some row.roleName }

/-- `findOne({ where: { id } })`. -/
def findById (db : UserDb) (id : Uuid) : Option UserEntity :=
  (db.users.find? (·.id == id)).map (·.load)

/-- `findOne({ where: { email } })`. -/
def findByEmail (db : UserDb) (email : String) : Option UserEntity :=
  (db.users.find? (·.email == email)).map (·.load)

/-- The role in the row of a user. -/
def storedRole (db : UserDb) (id : Uuid) : Option Role :=
  (db.users.find? (·.id == id)).map (·.roleName)

/-- The row that `save` writes for an entity. -/
def UserEntity.saved (roleColumn : UserEntity → Role) (user : UserEntity) (dbNow : ℤ) : UserRow :=
  { user.toUserRow with roleName := roleColumn user, updatedAt := dbNow }

/-- `DEFAULT_ROLES`. -/
def defaultRoles : Role → String
  | .student => "Student"
  | .employee => "University employee"
  | .diningAdmin => "Dining administrator"
  | .coworkingAdmin => "Coworking administrator"
  | .systemAdmin => "System administrator"

/-- `ensureDefaultRoles`. -/
def ensureDefaultRoles (db : UserDb) : UserDb :=
  { db with
    roles := db.roles ++ (roles.filter fun role => !db.roles.any (·.name == role)).map
      fun role => ⟨role, defaultRoles role⟩ }

@[simp] theorem ensureDefaultRoles_users (db : UserDb) :
    (ensureDefaultRoles db).users = db.users :=
  rfl

@[simp] theorem ensureDefaultRoles_uuids (db : UserDb) :
    (ensureDefaultRoles db).uuids = db.uuids :=
  rfl

/-- `toUserResponse`. -/
def toUserResponse (user : UserEntity) : UserResponse where
  id := user.id
  email := user.email
  fullName := user.fullName
  role := user.roleName
  createdAt := user.createdAt
  updatedAt := user.updatedAt

/-- `signJwt`. -/
def signJwt (user : UserEntity) (now : ℤ) : Jwt where
  claims := ⟨user.id, user.email, user.roleName⟩
  iat := clockTimestamp now
  exp := clockTimestamp now + 7 * 24 * 60 * 60

/-! ## Handlers -/

/-- The entity that `register` saves : no relation is loaded. -/
def newUser (passwords : Passwords) (salt : String) (dto : RegisterDto) (id : Uuid) (dbNow : ℤ) :
    UserEntity where
  id := id
  email := dto.email
  fullName := dto.fullName
  passwordHash := passwords.hash salt dto.password
  roleName := .student
  createdAt := dbNow
  updatedAt := dbNow
  role := none

/-- `register`. -/
def register (roleColumn : UserEntity → Role) (passwords : Passwords) (salt : String) (db : UserDb)
    (dto : RegisterDto) (clock : Clock) : Except HttpException (Jwt × UserResponse) × UserDb :=
  let db := ensureDefaultRoles db
  match findByEmail db dto.email with
  | some _ => (.error (.badRequest "Email already registered"), db)
  | none =>
    let user := newUser passwords salt dto db.uuids clock.dbNow
    (.ok (signJwt user clock.now, toUserResponse user),
      { db with
        users := db.users ++ [user.saved roleColumn clock.dbNow]
        uuids := db.uuids + 1 })

/-- `login`. -/
def login (passwords : Passwords) (db : UserDb) (dto : LoginDto) (now : ℤ) :
    Except HttpException (Jwt × UserResponse) := do
  let some user := findByEmail db dto.email | throw (.unauthorized "Invalid credentials")
  unless passwords.compare dto.password user.passwordHash do
    throw (.unauthorized "Invalid credentials")
  return (signJwt user now, toUserResponse user)

/-- `getUserEntity`. -/
def getUserEntity (db : UserDb) (id : Uuid) : Except HttpException UserEntity := do
  let some user := findById db id | throw (.notFound "User not found")
  return user

/-- `getUserById`. -/
def getUserById (db : UserDb) (id : Uuid) : Except HttpException UserResponse := do
  let user ← getUserEntity db id
  return toUserResponse user

/-- The `where` of `listUsers` : a text that is no role selects every user. -/
def selectsRole (text : Option String) (role : Role) : Bool :=
  match text.bind fun text => roles.find? (roleText · == text) with
  | some wanted => role == wanted
  | none => true

/-- `listUsers`; `rank` orders the rows of one `createdAt`. -/
def listUsers (db : UserDb) (rank : Uuid → ℕ) (role : Option String) : List UserResponse :=
  ((db.users.filter fun row => selectsRole role row.roleName).insertionSort
    (CreatedBefore (·.createdAt) fun row => rank row.id)).map fun row => toUserResponse row.load

/-- `updateRole`. -/
def updateRole (roleColumn : UserEntity → Role) (db : UserDb) (id : Uuid) (role : Role)
    (dbNow : ℤ) : Except HttpException UserResponse × UserDb :=
  let db := ensureDefaultRoles db
  match getUserEntity db id with
  | .error e => (.error e, db)
  | .ok user =>
    let user := { user with roleName := role }
    (.ok (toUserResponse { user with updatedAt := dbNow }),
      { db with users := saveRow (·.id) (user.saved roleColumn dbNow) db.users })

/-! ## What the handlers do -/

theorem findByEmail_eq_some {db : UserDb} {email : String} {user : UserEntity}
    (h : findByEmail db email = some user) : ∃ row ∈ db.users, user = row.load := by
  obtain ⟨row, hrow, rfl⟩ := Option.map_eq_some_iff.mp h
  exact ⟨row, List.mem_of_find?_eq_some hrow, rfl⟩

theorem mem_listUsers {db : UserDb} {rank : Uuid → ℕ} {role : Option String}
    {response : UserResponse} : response ∈ listUsers db rank role ↔
      ∃ row ∈ db.users, selectsRole role row.roleName = true ∧
        response = toUserResponse row.load := by
  simp only [listUsers, List.mem_map, mem_sorted_iff, and_assoc, eq_comm]

/-- A registration is refused and leaves the users as they are, or adds a student. -/
theorem register_cases (roleColumn : UserEntity → Role) (passwords : Passwords) (salt : String)
    (db : UserDb) (dto : RegisterDto) (clock : Clock) :
    register roleColumn passwords salt db dto clock =
        (.error (.badRequest "Email already registered"), ensureDefaultRoles db) ∨
      register roleColumn passwords salt db dto clock =
        (.ok (signJwt (newUser passwords salt dto db.uuids clock.dbNow) clock.now,
            toUserResponse (newUser passwords salt dto db.uuids clock.dbNow)),
          { ensureDefaultRoles db with
            users := db.users ++
              [(newUser passwords salt dto db.uuids clock.dbNow).saved roleColumn clock.dbNow]
            uuids := db.uuids + 1 }) := by
  unfold register
  cases h : findByEmail (ensureDefaultRoles db) dto.email with
  | some user => exact Or.inl (by simp only [h])
  | none => exact Or.inr (by simp only [h, ensureDefaultRoles_users, ensureDefaultRoles_uuids])

/-- A login that succeeds signs a token for a row of the table. -/
theorem login_eq_ok {passwords : Passwords} {db : UserDb} {dto : LoginDto} {now : ℤ} {token : Jwt}
    {response : UserResponse} (h : login passwords db dto now = .ok (token, response)) :
    ∃ row ∈ db.users, token = signJwt row.load now := by
  unfold login at h
  cases hfind : findByEmail db dto.email with
  | none => simp [hfind] at h
  | some user =>
    simp only [hfind] at h
    obtain ⟨-, rfl, -⟩ : passwords.compare dto.password user.passwordHash = true ∧
        signJwt user now = token ∧ toUserResponse user = response := by simpa using h
    obtain ⟨row, hrow, rfl⟩ := findByEmail_eq_some hfind
    exact ⟨row, hrow, rfl⟩

/-- A role change of an unknown user leaves the users as they are; that of a user saves the
loaded entity with the new role in its column. -/
theorem updateRole_cases (roleColumn : UserEntity → Role) (db : UserDb) (id : Uuid) (role : Role)
    (dbNow : ℤ) :
    (updateRole roleColumn db id role dbNow).2 = ensureDefaultRoles db ∨
      ∃ row ∈ db.users, row.id = id ∧
        (updateRole roleColumn db id role dbNow).2 =
          { ensureDefaultRoles db with
            users := saveRow (·.id)
              (UserEntity.saved roleColumn { row.load with roleName := role } dbNow)
              db.users } := by
  unfold updateRole getUserEntity findById
  cases hfind : db.users.find? (·.id == id) with
  | none => exact Or.inl (by simp [hfind, throw, throwThe, MonadExceptOf.throw])
  | some row =>
    refine Or.inr ⟨row, List.mem_of_find?_eq_some hfind, by simpa using List.find?_some hfind, ?_⟩
    simp [hfind, pure, Except.pure]

end UserService

end Qoms
