import Qoms.RoleAccess

/-!
# What a role update stores

`updateRole` loads the user, with the role as the eager relation, and sets the column's property
alone. If the relation decides what `save` writes, the row keeps its role, whatever the call
answers : the response is built from the entity in memory (`updateRole_response`). What the
service reports of a user later is the role of the row (`Reports.of_stored`), so the new role is
reported just when it is the old one (`updateRole_reported_iff`).
-/

set_option autoImplicit false

namespace Qoms.Gateway

open UserService

/-- The user service reports the role for the user : by id, in every listing, and in the token of
the user's login. -/
structure Reports (passwords : Passwords) (s : Access) (id : Uuid) (role : Role) : Prop where
  byId : ∃ response, getUserById s.users id = .ok response ∧ response.role = role
  listed : ∀ rank text, ∀ response ∈ listUsers s.users rank text, response.id = id →
    response.role = role
  found : ∀ rank text, (∃ response ∈ listUsers s.users rank text, response.id = id) ↔
    selectsRole text role = true
  login : ∀ dto token response, login passwords s.users dto s.clock = .ok (token, response) →
    token.claims.sub = id → token.claims.role = role

section

variable {roleColumn : UserEntity → Role} {passwords : Passwords} {s : Access} {db : UserDb}
  {id : Uuid} {role : Role}

/-! ## What is reported is what is stored -/

theorem exists_mem_of_storedRole (h : storedRole db id = some role) :
    ∃ row ∈ db.users, row.id = id ∧ row.roleName = role := by
  obtain ⟨row, hfind, hrole⟩ := Option.map_eq_some_iff.mp h
  exact ⟨row, List.mem_of_find?_eq_some hfind, by simpa using List.find?_some hfind, hrole⟩

theorem getUserById_role {response : UserResponse} (h : getUserById db id = .ok response) :
    storedRole db id = some response.role := by
  unfold getUserById getUserEntity findById at h
  unfold storedRole
  cases hfind : db.users.find? (·.id == id) with
  | none => simp [hfind] at h
  | some row =>
    obtain rfl : toUserResponse row.load = response := by simpa [hfind] using h
    rfl

theorem getUserById_of_stored (h : storedRole db id = some role) :
    ∃ response, getUserById db id = .ok response ∧ response.role = role := by
  obtain ⟨row, hfind, rfl⟩ := Option.map_eq_some_iff.mp h
  exact ⟨toUserResponse row.load, by simp [getUserById, getUserEntity, findById, hfind], rfl⟩

/-- The role of a row is reported. -/
theorem Reports.of_stored (hkeyed : UsersKeyed s.users) (h : storedRole s.users id = some role) :
    Reports passwords s id role where
  byId := getUserById_of_stored h
  listed := by
    rintro rank text response hmem rfl
    obtain ⟨row, hrow, -, rfl⟩ := mem_listUsers.mp hmem
    exact Option.some_inj.mp ((storedRole_of_mem hkeyed hrow).symm.trans h)
  found := by
    intro rank text
    constructor
    · rintro ⟨response, hmem, rfl⟩
      obtain ⟨row, hrow, hselects, rfl⟩ := mem_listUsers.mp hmem
      obtain rfl := Option.some_inj.mp ((storedRole_of_mem hkeyed hrow).symm.trans h)
      exact hselects
    · intro hselects
      obtain ⟨row, hrow, rfl, rfl⟩ := exists_mem_of_storedRole h
      exact ⟨_, mem_listUsers.mpr ⟨row, hrow, hselects, rfl⟩, rfl⟩
  login := by
    rintro dto token response hok rfl
    obtain ⟨row, hrow, rfl⟩ := login_eq_ok hok
    exact Option.some_inj.mp ((storedRole_of_mem hkeyed hrow).symm.trans h)

/-- For a stored user, the role that is reported is that of the row. -/
theorem reports_iff (hkeyed : UsersKeyed s.users) : Reports passwords s id role ↔
    storedRole s.users id = some role := by
  refine ⟨fun h => ?_, .of_stored hkeyed⟩
  obtain ⟨response, hok, rfl⟩ := h.byId
  exact getUserById_role hok

/-! ## What an update writes -/

/-- The answer of an update has the new role. -/
theorem updateRole_response (hid : ∃ row ∈ db.users, row.id = id) (role : Role) (dbNow : ℤ) :
    ∃ response, (updateRole roleColumn db id role dbNow).1 = .ok response ∧
      response.role = role := by
  obtain ⟨row, hrow, rfl⟩ := hid
  unfold updateRole getUserEntity findById
  cases hfind : db.users.find? (·.id == row.id) with
  | none => exact absurd (List.find?_eq_none.mp hfind row hrow) (by simp)
  | some row' => simp [hfind, pure, Except.pure, toUserResponse]

/-- An update leaves the other users as they are. -/
theorem findById_updateRole_of_ne {other : Uuid} (hne : other ≠ id) (role : Role) (dbNow : ℤ) :
    findById (updateRole roleColumn db id role dbNow).2 other = findById db other := by
  rcases updateRole_cases roleColumn db id role dbNow with heq | ⟨row, -, rfl, heq⟩
  · rw [heq]
    rfl
  · rw [heq]
    exact congrArg (Option.map (·.load)) (@find?_saveRow_of_ne _ (·.id)
      (UserEntity.saved roleColumn { row.load with roleName := role } dbNow) other hne db.users)

/-- If the relation decides, an update leaves the role of the row as it is. -/
theorem storedRole_updateRole (hrel : ∀ (user : UserEntity) (r : Role), user.role = some r →
      roleColumn user = r) (hkeyed : UsersKeyed db) (role : Role) (dbNow : ℤ) :
    storedRole (updateRole roleColumn db id role dbNow).2 id = storedRole db id := by
  rcases updateRole_cases roleColumn db id role dbNow with heq | ⟨row, hrow, rfl, heq⟩
  · rw [heq]
    rfl
  · have hfind : db.users.find? (·.id == row.id) = some row := by
      obtain ⟨row', hfind, -⟩ := Option.map_eq_some_iff.mp (storedRole_of_mem hkeyed hrow)
      have hid : row'.id = row.id := by simpa using List.find?_some hfind
      rw [hfind, hkeyed.eq_of_id_eq (List.mem_of_find?_eq_some hfind) hrow hid]
    have hsaved := @find?_saveRow _ _ (·.id)
      (UserEntity.saved roleColumn { row.load with roleName := role } dbNow) row hfind
    rw [storedRole_of_mem hkeyed hrow, heq]
    exact (congrArg (Option.map (·.roleName)) hsaved).trans (congrArg some (hrel _ _ rfl))

end

/-- If `save` takes a loaded relation's role for the column : in any run, after `updateRole` of a
stored user and any later calls without another one of that user, the new role is what the
service reports of the user, and no other user was changed by the call, exactly when the user had
that role before. -/
theorem updateRole_reported_iff (roleColumn : UserEntity → Role)
    (hrel : ∀ (user : UserEntity) (r : Role), user.role = some r → roleColumn user = r)
    (passwords : Passwords) (users : UserDb) (hkeyed : UsersKeyed users) (clock : ℤ)
    (as bs : List AccessAction) (id : Uuid) (role : Role) (dbNow : ℤ) :
    let step := accessStep roleColumn passwords
    let before := run step (.start users clock) as
    (∃ row ∈ before.users.users, row.id = id) → (∀ b ∈ bs, ¬b.UpdatesRoleOf id) →
    ((Reports passwords (run step before (.updateRole id role dbNow :: bs)) id role ∧
        ∀ other, other ≠ id →
          findById (step before (.updateRole id role dbNow)).users other =
            findById before.users other) ↔
      storedRole before.users id = some role) := by
  intro step before hid hbs
  have hbefore : UsersKeyed before.users := usersKeyed_run hkeyed as
  have hafter : UsersKeyed (run step before (.updateRole id role dbNow :: bs)).users :=
    usersKeyed_run hbefore _
  obtain ⟨row, hrow, rfl⟩ := hid
  have hstored : storedRole before.users row.id = some row.roleName :=
    storedRole_of_mem hbefore hrow
  have hkept : storedRole (run step before (.updateRole row.id role dbNow :: bs)).users row.id =
      some row.roleName := by
    rw [run_cons]
    refine storedRole_run hbs ?_
    exact (storedRole_updateRole hrel hbefore role dbNow).trans hstored
  rw [reports_iff hafter, hkept, ← hstored, and_iff_left]
  exact fun other hne => findById_updateRole_of_ne hne role dbNow

/-- The column as it is saved : from the relation, if it was loaded. -/
def relationFirst (user : UserEntity) : Role :=
  user.role.getD user.roleName

/-- The system administrator is made a student : the answer says so, the row and the token of
the next login say otherwise. -/
theorem demoted_keepsRole :
    ((updateRole relationFirst oneAdmin 7 .student 2000).1.toOption.map (·.role)) =
      some .student ∧
    storedRole (updateRole relationFirst oneAdmin 7 .student 2000).2 7 = some .systemAdmin ∧
    ¬Reports plainPasswords (run (accessStep relationFirst plainPasswords) (.start oneAdmin 1000)
      [.updateRole 7 .student 2000]) 7 .student := by
  refine ⟨by decide, by decide, fun h => ?_⟩
  have htoken := h.login ⟨"admin@example.com", "Password123!"⟩ adminToken
    ⟨7, "admin@example.com", "Admin", .systemAdmin, 0, 2000⟩ (by decide) rfl
  exact absurd htoken (by decide)

/-- An update with the role the user has changes no answer. -/
theorem updateRole_reported_iff_sameRole :
    Reports plainPasswords (run (accessStep relationFirst plainPasswords) (.start oneAdmin 1000)
      [.updateRole 7 .systemAdmin 2000, .login ⟨"admin@example.com", "Password123!"⟩]) 7
      .systemAdmin := by
  have hkeyed : UsersKeyed oneAdmin := ⟨List.nodup_singleton _, by decide⟩
  have hrel : ∀ (user : UserEntity) (r : Role), user.role = some r → relationFirst user = r := by
    intro user r h
    rw [relationFirst, h, Option.getD_some]
  exact ((updateRole_reported_iff relationFirst hrel plainPasswords oneAdmin hkeyed 1000 []
    [.login ⟨"admin@example.com", "Password123!"⟩] 7 .systemAdmin 2000
    ⟨_, List.mem_singleton_self _, rfl⟩ (by simp [AccessAction.UpdatesRoleOf])).mpr rfl).1

end Qoms.Gateway
