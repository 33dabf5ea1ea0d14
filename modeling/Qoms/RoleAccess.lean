import Qoms.Gateway
import Qoms.RateLimitBucket
import Qoms.Run

/-!
# Roles in tokens

A role goes from the store into a token, from the token into the headers that the gateway sends
on, and nobody on the way reads the store again. So what an accepted request shows of a user is
the role of the moment the token was issued (`accepted_issued`), less than seven days ago, and it
is the role of the moment of the request where no `updateRole` of the user came in between. A
user whose role was lowered meanwhile is still let in (`lowered`).
-/

set_option autoImplicit false

namespace Qoms.Gateway

open UserService

/-! ## Runs -/

/-- The user service's tables, the tokens it signed, the gateway's store, and the time. -/
structure Access where
  users : UserDb
  signed : List Jwt
  redis : Redis
  clock : ℤ

/-- No token was signed yet. -/
def Access.start (users : UserDb) (clock : ℤ) : Access :=
  ⟨users, [], .empty, clock⟩

/-- A call of the user service, a request at the gateway, or a time that passes. -/
inductive AccessAction
  | register (dto : RegisterDto) (salt : String) (dbNow : ℤ)
  | login (dto : LoginDto)
  | updateRole (id : Uuid) (role : Role) (dbNow : ℤ)
  | request (route : GatewayRoute) (ip : Option String) (authorization : Option Jwt)
  | pass (d : ℕ)

/-- A request as it comes to the guards. -/
def incoming (ip : Option String) (authorization : Option Jwt) : GatewayRequest :=
  ⟨ip, authorization, none⟩

variable (roleColumn : UserEntity → Role) (passwords : Passwords)

/-- The token that a call of the user service returns. -/
def issue (s : Access) : AccessAction → Option Jwt
  | .register dto salt dbNow =>
    (register roleColumn passwords salt s.users dto ⟨s.clock, dbNow⟩).1.toOption.map (·.1)
  | .login dto => (login passwords s.users dto s.clock).toOption.map (·.1)
  | _ => none

/-- The user service's tables after an action. -/
def usersAfter (s : Access) : AccessAction → UserDb
  | .register dto salt dbNow => (register roleColumn passwords salt s.users dto ⟨s.clock, dbNow⟩).2
  | .updateRole id role dbNow => (updateRole roleColumn s.users id role dbNow).2
  | _ => s.users

/-- One action. -/
def accessStep (s : Access) (a : AccessAction) : Access where
  users := usersAfter roleColumn passwords s a
  signed := s.signed ++ (issue roleColumn passwords s a).toList
  redis :=
    match a with
    | .request route ip authorization =>
      (canActivate s.signed s.redis route (incoming ip authorization) s.clock).2
    | _ => s.redis
  clock :=
    match a with
    | .pass d => s.clock + d
    | _ => s.clock

/-- The gateway accepts the request with these claims, and so does the role check of the service
it is sent on to. -/
def Accepts (s : Access) (route : GatewayRoute) (ip : Option String) (authorization : Option Jwt)
    (claims : JwtClaims) : Prop :=
  ∃ request,
    (canActivate s.signed s.redis route (incoming ip authorization) s.clock).1 = .ok request ∧
      request.user = some claims ∧
      rolesGuard route.downstreamRoles (buildHeaders request.user) = true

/-- The action is an `updateRole` of the user. -/
def AccessAction.UpdatesRoleOf (id : Uuid) : AccessAction → Prop
  | .updateRole id' _ _ => id' = id
  | _ => False

/-! ## The users -/

/-- Users have distinct ids, all drawn. -/
def UsersKeyed (db : UserDb) : Prop :=
  Keyed (·.id) db.users db.uuids

theorem storedRole_of_mem {db : UserDb} (hkeyed : UsersKeyed db) {row : UserRow}
    (hrow : row ∈ db.users) : storedRole db row.id = some row.roleName := by
  unfold storedRole
  cases h : db.users.find? (·.id == row.id) with
  | none => exact absurd (List.find?_eq_none.mp h row hrow) (by simp)
  | some r =>
    have hid : r.id = row.id := by simpa using List.find?_some h
    obtain rfl := hkeyed.eq_of_id_eq (List.mem_of_find?_eq_some h) hrow hid
    rfl

section

variable {roleColumn passwords} {s : Access} {a : AccessAction} {token : Jwt} {id : Uuid}
  {role : Role}

/-- What one action can do to the users. -/
inductive UsersMove (roleColumn : UserEntity → Role) (passwords : Passwords) (db : UserDb) :
    AccessAction → UserDb → Prop
  | same {a : AccessAction} {db' : UserDb} (husers : db'.users = db.users)
      (huuids : db'.uuids = db.uuids) : UsersMove roleColumn passwords db a db'
  | added {dto : RegisterDto} {salt : String} {dbNow : ℤ} {db' : UserDb}
      (husers : db'.users = db.users ++
        [(newUser passwords salt dto db.uuids dbNow).saved roleColumn dbNow])
      (huuids : db'.uuids = db.uuids + 1) :
      UsersMove roleColumn passwords db (.register dto salt dbNow) db'
  | changed {row : UserRow} {role : Role} {dbNow : ℤ} {db' : UserDb} (hrow : row ∈ db.users)
      (husers : db'.users = saveRow (·.id)
        (UserEntity.saved roleColumn { row.load with roleName := role } dbNow) db.users)
      (huuids : db'.uuids = db.uuids) :
      UsersMove roleColumn passwords db (.updateRole row.id role dbNow) db'

theorem usersMove (roleColumn : UserEntity → Role) (passwords : Passwords) (s : Access)
    (a : AccessAction) :
    UsersMove roleColumn passwords s.users a (accessStep roleColumn passwords s a).users := by
  cases a with
  | register dto salt dbNow =>
    rcases register_cases roleColumn passwords salt s.users dto ⟨s.clock, dbNow⟩ with heq | heq
    · exact .same (congrArg (·.2.users) heq) (congrArg (·.2.uuids) heq)
    · exact .added (congrArg (·.2.users) heq) (congrArg (·.2.uuids) heq)
  | updateRole id role dbNow =>
    rcases updateRole_cases roleColumn s.users id role dbNow with heq | ⟨row, hrow, rfl, heq⟩
    · exact .same (congrArg (·.users) heq) (congrArg (·.uuids) heq)
    · exact .changed hrow (congrArg (·.users) heq) (congrArg (·.uuids) heq)
  | _ => exact .same rfl rfl

theorem usersKeyed_step (hkeyed : UsersKeyed s.users) (a : AccessAction) :
    UsersKeyed (accessStep roleColumn passwords s a).users := by
  have hmove := usersMove roleColumn passwords s a
  generalize (accessStep roleColumn passwords s a).users = db' at hmove ⊢
  unfold UsersKeyed at hkeyed ⊢
  cases hmove with
  | same husers huuids => rwa [husers, huuids]
  | added husers huuids =>
    rw [husers, huuids]
    exact hkeyed.insert le_rfl (Nat.lt_succ_self _)
  | @changed row role dbNow _ hrow husers huuids =>
    rw [husers, huuids]
    exact hkeyed.saveRow (hkeyed.fresh row hrow) le_rfl

theorem storedRole_step (hnot : ¬a.UpdatesRoleOf id) (h : storedRole s.users id = some role) :
    storedRole (accessStep roleColumn passwords s a).users id = some role := by
  have hmove := usersMove roleColumn passwords s a
  generalize (accessStep roleColumn passwords s a).users = db' at hmove ⊢
  unfold storedRole at h ⊢
  cases hmove with
  | same husers huuids => rwa [husers]
  | added husers huuids =>
    obtain ⟨row, hfind, hrole⟩ := Option.map_eq_some_iff.mp h
    rw [husers, List.find?_append, hfind, Option.some_or, Option.map_some, hrole]
  | @changed row role' dbNow _ hrow husers huuids =>
    have hne : id ≠ (UserEntity.saved roleColumn { row.load with roleName := role' } dbNow).id :=
      fun heq => hnot heq.symm
    rw [husers, find?_saveRow_of_ne hne]
    exact h

/-- A token holds the role that is stored after its issue. -/
theorem issue_storedRole (hplain : ∀ user : UserEntity, user.role = none →
      roleColumn user = user.roleName) (hkeyed : UsersKeyed s.users)
    (h : issue roleColumn passwords s a = some token) :
    storedRole (accessStep roleColumn passwords s a).users token.claims.sub =
        some token.claims.role ∧
      token.exp = clockTimestamp s.clock + 7 * 24 * 60 * 60 := by
  cases a with
  | register dto salt dbNow =>
    obtain ⟨⟨_, response⟩, hok, rfl⟩ := Option.map_eq_some_iff.mp h
    rw [toOption_eq_some] at hok
    rcases register_cases roleColumn passwords salt s.users dto ⟨s.clock, dbNow⟩ with heq | heq
    · rw [heq] at hok
      exact absurd hok (by simp)
    · have husers : (accessStep roleColumn passwords s (.register dto salt dbNow)).users.users =
          s.users.users ++
            [(newUser passwords salt dto s.users.uuids dbNow).saved roleColumn dbNow] :=
        congrArg (·.2.users) heq
      rw [heq] at hok
      obtain ⟨rfl, -⟩ := Prod.mk.inj (Except.ok.inj hok)
      refine ⟨?_, rfl⟩
      have hkeyed' : UsersKeyed
          (accessStep roleColumn passwords s (.register dto salt dbNow)).users :=
        usersKeyed_step hkeyed _
      have hstored := storedRole_of_mem hkeyed'
        (husers ▸ List.mem_append_right _ (List.mem_singleton_self _))
      exact hstored.trans (congrArg some (hplain _ rfl))
  | login dto =>
    obtain ⟨⟨_, response⟩, hok, rfl⟩ := Option.map_eq_some_iff.mp h
    rw [toOption_eq_some] at hok
    obtain ⟨row, hrow, rfl⟩ := login_eq_ok hok
    exact ⟨storedRole_of_mem hkeyed hrow, rfl⟩
  | _ => exact absurd h (by simp [issue])

end

/-! ## Whole runs -/

section

variable {roleColumn passwords} {s : Access} {as : List AccessAction} {token : Jwt} {id : Uuid}
  {role : Role}

theorem usersKeyed_run (hkeyed : UsersKeyed s.users) (as : List AccessAction) :
    UsersKeyed (run (accessStep roleColumn passwords) s as).users := by
  have hstep : ∀ (t : Access) (b : AccessAction), True → UsersKeyed t.users →
      UsersKeyed (accessStep roleColumn passwords t b).users := fun _ b _ h => usersKeyed_step h b
  exact run_invariant (fun _ => True) hstep hkeyed fun _ _ => trivial

theorem storedRole_run (hnot : ∀ a ∈ as, ¬a.UpdatesRoleOf id)
    (h : storedRole s.users id = some role) :
    storedRole (run (accessStep roleColumn passwords) s as).users id = some role := by
  have hstep : ∀ (t : Access) (b : AccessAction), ¬b.UpdatesRoleOf id →
      storedRole t.users id = some role →
        storedRole (accessStep roleColumn passwords t b).users id = some role :=
    fun _ _ hb h => storedRole_step hb h
  exact run_invariant (fun b => ¬AccessAction.UpdatesRoleOf id b) hstep h hnot

/-- Each signed token was issued by an action of the run. -/
theorem signed_issued (hnone : s.signed = [])
    (h : token ∈ (run (accessStep roleColumn passwords) s as).signed) :
    ∃ before a after, as = before ++ a :: after ∧
      issue roleColumn passwords (run (accessStep roleColumn passwords) s before) a =
        some token := by
  induction as using List.reverseRecOn with
  | nil =>
    rw [run_nil, hnone] at h
    exact absurd h List.not_mem_nil
  | append_singleton as a ih =>
    have hsigned : token ∈ (run (accessStep roleColumn passwords) s as).signed ++
        (issue roleColumn passwords (run (accessStep roleColumn passwords) s as) a).toList := by
      rwa [run_append, run_cons, run_nil] at h
    rw [List.mem_append, Option.mem_toList] at hsigned
    rcases hsigned with hold | hnew
    · obtain ⟨before, b, after, rfl, hissue⟩ := ih hold
      exact ⟨before, b, after ++ [a], by simp, hissue⟩
    · exact ⟨as, a, [], rfl, hnew⟩

end

/-- A route restricted by roles is one of a proxy controller. -/
theorem metadata_of_roles {route : GatewayRoute} (hroles : route.metadata.roles ≠ []) :
    ∃ ratePolicy, route.metadata = proxyRoute route.metadata.roles ratePolicy := by
  cases route <;> first | exact absurd rfl hroles | exact ⟨_, rfl⟩

/-- What an accepted request on a restricted route presents. -/
theorem accepts_restricted {s : Access} {route : GatewayRoute} {ip : Option String}
    {authorization : Option Jwt} {claims : JwtClaims} (hroles : route.metadata.roles ≠ [])
    (h : Accepts s route ip authorization claims) :
    ∃ token, authorization = some token ∧ verify s.signed token s.clock = some claims ∧
      claims.role ∈ route.metadata.roles ∧
      (route.downstreamRoles ≠ [] → claims.role ∈ route.downstreamRoles) := by
  obtain ⟨request, hok, huser, hdownstream⟩ := h
  obtain ⟨ratePolicy, hroute⟩ := metadata_of_roles hroles
  rw [canActivate, hroute] at hok
  simp only [proxyRoute, List.append_nil, runGuards] at hok
  cases hauth : authGuard s.signed (proxyRoute route.metadata.roles ratePolicy)
      (incoming ip authorization) s.clock with
  | error e =>
    rw [proxyRoute] at hauth
    simp only [hauth] at hok
    exact absurd hok (by simp)
  | ok authorized =>
    obtain ⟨token, claims', htoken, hverify, hrole, rfl⟩ := authGuard_eq_ok rfl hauth
    rw [proxyRoute] at hauth
    simp only [hauth] at hok
    -- the limiter lets the request through as it is
    split at hok
    · exact absurd hok (by simp)
    · obtain rfl := Except.ok.inj hok
      obtain rfl := Option.some_inj.mp huser
      refine ⟨token, htoken, hverify, hrole (by rwa [hroute] at hroles), fun hdown => ?_⟩
      simpa [rolesGuard, buildHeaders, hdown] using hdownstream

/-- On a route restricted by roles a request is accepted, by the gateway and by the role check of
the service it is sent on to, only with a token that an action of the run issued less than seven
days ago, for the role that was stored for the user then. That role is among those the route
requires; and it is the stored one still, if no `updateRole` of the user came since. -/
theorem accepted_issued (roleColumn : UserEntity → Role) (passwords : Passwords)
    (hplain : ∀ user : UserEntity, user.role = none → roleColumn user = user.roleName)
    (users : UserDb) (hkeyed : UsersKeyed users) (clock : ℤ) (as : List AccessAction)
    (route : GatewayRoute) (ip : Option String) (authorization : Option Jwt) (claims : JwtClaims)
    (hroles : route.metadata.roles ≠ [])
    (haccepts : Accepts (run (accessStep roleColumn passwords) (.start users clock) as) route ip
      authorization claims) :
    ∃ before a after token, as = before ++ a :: after ∧ authorization = some token ∧
      issue roleColumn passwords (run (accessStep roleColumn passwords) (.start users clock) before)
        a = some token ∧
      (run (accessStep roleColumn passwords) (.start users clock) as).clock <
        (run (accessStep roleColumn passwords) (.start users clock) before).clock +
          7 * 24 * 60 * 60 * 1000 ∧
      ∃ role, storedRole (run (accessStep roleColumn passwords) (.start users clock)
          (before ++ [a])).users claims.sub = some role ∧
        role ∈ route.metadata.roles ∧
        (route.downstreamRoles ≠ [] → role ∈ route.downstreamRoles) ∧
        ((∀ b ∈ after, ¬b.UpdatesRoleOf claims.sub) →
          storedRole (run (accessStep roleColumn passwords) (.start users clock) as).users
            claims.sub = some role) := by
  obtain ⟨token, rfl, hverify, hrole, hdownstream⟩ := accepts_restricted hroles haccepts
  obtain ⟨hsigned, hexp, rfl⟩ := verify_eq_some hverify
  obtain ⟨before, a, after, rfl, hissue⟩ := signed_issued rfl hsigned
  obtain ⟨hstored, hexp'⟩ := issue_storedRole hplain (usersKeyed_run hkeyed before) hissue
  have hthen : run (accessStep roleColumn passwords) (.start users clock) (before ++ [a]) =
      accessStep roleColumn passwords
        (run (accessStep roleColumn passwords) (.start users clock) before) a := by
    rw [run_append, run_cons, run_nil]
  refine ⟨before, a, after, token, rfl, rfl, hissue, ?_, token.claims.role, hthen ▸ hstored, hrole,
    hdownstream, fun hsince => ?_⟩
  · rw [hexp', clockTimestamp, clockTimestamp] at hexp
    omega
  · rw [run_append, run_cons]
    exact storedRole_run hsince hstored

/-! ## A role that was lowered -/

/-- The first request of an address on a route that is open to all administrators, and that has no
roles of its own downstream, is accepted with a token of a system administrator. -/
theorem accepts_asAdmin (route : GatewayRoute) (hroute : route.metadata = proxyRoute admins none)
    (hdownstream : route.downstreamRoles = []) {s : Access} (hredis : s.redis = .empty)
    {token : Jwt} {claims : JwtClaims} (hverify : verify s.signed token s.clock = some claims)
    (hrole : claims.role = .systemAdmin) (ip : Option String) :
    Accepts s route ip (some token) claims := by
  have hauth : authGuard s.signed route.metadata (incoming ip (some token)) s.clock =
      .ok ⟨ip, some token, some claims⟩ := by
    simp [authGuard, hroute, proxyRoute, admins, incoming, hverify, hrole]
  have hlimit : (rateLimitGuard .empty route.metadata ⟨ip, some token, some claims⟩ s.clock).1 =
      .ok () := by
    rw [hroute]
    exact rateLimitGuard_of_isAllowed RateLimitService.checkTokenBucket_empty_isAllowed
  refine ⟨⟨ip, some token, some claims⟩, ?_, rfl, by rw [hdownstream]; rfl⟩
  rw [canActivate, hredis, hroute]
  rw [hroute] at hauth hlimit
  change (runGuards s.signed (proxyRoute admins none) s.clock [.gatewayAuth, .rateLimit]
    (incoming ip (some token)) .empty).1 = _
  simp only [runGuards, hauth]
  generalize rateLimitGuard .empty (proxyRoute admins none)
    ⟨ip, some token, some claims⟩ s.clock = limited at hlimit ⊢
  obtain ⟨outcome, redis⟩ := limited
  obtain rfl : outcome = .ok () := hlimit
  rfl

/-- The only user is a system administrator. -/
def oneAdmin : UserDb :=
  ⟨[], [⟨7, "admin@example.com", "Admin", "Password123!", .systemAdmin, 0, 0⟩], 8⟩

/-- Passwords as they are. -/
def plainPasswords : Passwords :=
  ⟨fun _ password => password, fun password hash => password == hash⟩

/-- The administrator logs in, and is made a student. -/
def lowered : List AccessAction :=
  [.login ⟨"admin@example.com", "Password123!"⟩, .updateRole 7 .student 2000]

/-- The token of the administrator. -/
def adminToken : Jwt :=
  ⟨⟨7, "admin@example.com", .systemAdmin⟩, 1, 604801⟩

theorem verify_adminToken : verify (run (accessStep (·.roleName) plainPasswords)
    (.start oneAdmin 1000) lowered).signed adminToken 1000 = some adminToken.claims := by
  decide

/-- The role that is stored is `student`, and the look at the telemetry is accepted. -/
theorem lowered_accepted : GatewayRoute.latest.metadata.roles = admins ∧
    Accepts (run (accessStep (·.roleName) plainPasswords) (.start oneAdmin 1000) lowered)
      .latest (some "172.18.0.2") (some adminToken) adminToken.claims ∧
    storedRole (run (accessStep (·.roleName) plainPasswords) (.start oneAdmin 1000) lowered).users
      adminToken.claims.sub = some .student :=
  ⟨rfl, accepts_asAdmin .latest rfl rfl rfl verify_adminToken rfl _, by decide⟩

/-- The token comes from the login. -/
theorem accepted_issued_lowered : ∃ before a after, lowered = before ++ a :: after ∧
    issue (·.roleName) plainPasswords
      (run (accessStep (·.roleName) plainPasswords) (.start oneAdmin 1000) before) a =
        some adminToken := by
  have hkeyed : UsersKeyed oneAdmin := ⟨List.nodup_singleton _, by decide⟩
  obtain ⟨before, a, after, token, hlowered, htoken, hissue, -⟩ :=
    accepted_issued (·.roleName) plainPasswords (fun _ _ => rfl) oneAdmin hkeyed 1000 lowered
      .latest (some "172.18.0.2") (some adminToken) adminToken.claims (by decide)
      (accepts_asAdmin .latest rfl rfl rfl verify_adminToken rfl _)
  obtain rfl := Option.some_inj.mp htoken
  exact ⟨before, a, after, hlowered, hissue⟩

end Qoms.Gateway
