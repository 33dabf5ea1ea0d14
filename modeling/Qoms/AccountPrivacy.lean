import Qoms.GatewayPaths
import Qoms.RoleAccess
import Qoms.ZoneControl

/-!
# Who is shown an account

The user service takes who asks from headers, and the gateway writes these from a token it has
verified (`sentHeaders`). A parameter that is no clean segment can lead the request to another
route of the service than the gateway's guards were for, so what protects an account are the
checks of `UsersController` and `AuthController` themselves (`UserCall.answer`).

They are enough : whatever the run, the route and the parameter, an account is shown to who
registers it or logs in to it, and else only with a token that was issued for it, or for a user
who was an admin then (`accounts_private`).
-/

set_option autoImplicit false

namespace Qoms.Gateway

open UserService Routing
open ZoneService (RequestHeaders currentUser present serviceAuthGuard)

/-! ## The controllers of the user service -/

/-- A call of one of their methods, with what it takes of the path, the query and the body. -/
inductive UserCall
  | health
  | register (dto : RegisterDto)
  | login (dto : LoginDto)
  | me
  | list (role : Option String)
  | getById (id : String)
  | updateRole (id : String) (role : Role)

/-- The endpoint of the method, and the parameters of the path. -/
def UserCall.target : UserCall → Endpoint HttpMethod × List (List Char)
  | .health => (endpoint .get ["health"], [])
  | .register _ => (endpoint .post ["auth", "register"], [])
  | .login _ => (endpoint .post ["auth", "login"], [])
  | .me => (endpoint .get ["auth", "me"], [])
  | .list _ => (endpoint .get ["users"], [])
  | .getById id => (endpoint .get ["users", ":id"], [id.toList])
  | .updateRole id _ => (endpoint .patch ["users", ":id", "role"], [id.toList])

/-- What a call throws : an exception of the framework, or a failed statement. -/
inductive CallError
  | http (e : HttpException)
  | database
  deriving DecidableEq, Repr

/-- What a call runs with : `INTERNAL_SERVICE_TOKEN`, the object mapper, the passwords and the salt
of a new one, the order in which the database returns rows of one time, and the clock. -/
structure UserEnv where
  serviceToken : Option String
  roleColumn : UserEntity → Role
  passwords : Passwords
  salt : String
  rank : Uuid → ℕ
  clock : Clock

/-- `["dining_admin", "coworking_admin", "system_admin"].includes(user.role)`. -/
def includesRole (role : String) : Bool :=
  ZoneService.adminRoles.contains role

/-- A method of a text that a `uuid` column is compared with. -/
def withUuid {α : Type} (id : String) (method : Uuid → Except HttpException α) :
    Except CallError α :=
  match uuidIn id with
  | none => .error .database
  | some id => (method id).mapError .http

/-- The accounts that the call's response shows. -/
def UserCall.answer (env : UserEnv) (headers : RequestHeaders) (db : UserDb) :
    UserCall → Except CallError (List UserResponse)
  | .health => return []
  | .register dto => do
    let (_, user) ←
      (UserService.register env.roleColumn env.passwords env.salt db dto env.clock).1.mapError .http
    return [user]
  | .login dto => do
    let (_, user) ← (UserService.login env.passwords db dto env.clock.now).mapError .http
    return [user]
  | .me => do
    checkService
    let some user := currentUser headers | return []
    return [← withUuid user.userId (getUserById db)]
  | .list role => do
    checkService
    if (currentUser headers).any fun user => !includesRole user.role then
      throw (.http (.forbidden "Access denied"))
    return listUsers db env.rank role
  | .getById id => do
    checkService
    if (currentUser headers).any fun user => user.userId ≠ id && !includesRole user.role then
      throw (.http (.forbidden "Access denied"))
    return [← withUuid id (getUserById db)]
  | .updateRole id role => do
    checkService
    unless ZoneService.rolesGuard ["system_admin"] headers do
      throw (.http (.forbidden "Insufficient role"))
    return [← withUuid id fun id =>
      (UserService.updateRole env.roleColumn db id role env.clock.dbNow).1]
where
  /-- `ServiceAuthGuard`. -/
  checkService : Except CallError Unit :=
    unless serviceAuthGuard env.serviceToken headers do
      throw (.http (.unauthorized "Missing or invalid service token"))

/-! ## The headers -/

/-- The headers of `buildHeaders`, as they are read. -/
def sentHeaders (serviceToken : Option String) (user : Option JwtClaims) : RequestHeaders where
  serviceToken := some (serviceToken.getD "internal-service-token")
  userId := (buildHeaders user).map (·.userId)
  userRole := (buildHeaders user).map fun h => roleText h.userRole

theorem uuidText_ne_empty (u : Uuid) : uuidText u ≠ "" := by
  intro heq
  have hnone : uuidIn "" = none := by decide
  have hread := uuidIn_uuidText u
  rw [heq, hnone] at hread
  cases hread

theorem roleText_ne_empty (role : Role) : roleText role ≠ "" := by
  cases role <;> decide

theorem present_some {text : String} (h : text ≠ "") : present (some text) = some text := by
  rw [present, Option.filter_some, if_pos (by simpa using h)]

/-- A service reads the claims back. -/
theorem currentUser_sentHeaders (serviceToken : Option String) (claims : JwtClaims) :
    currentUser (sentHeaders serviceToken (some claims)) =
      some ⟨uuidText claims.sub, roleText claims.role⟩ := by
  simp only [currentUser, sentHeaders, buildHeaders, Option.map_some,
    present_some (uuidText_ne_empty claims.sub), present_some (roleText_ne_empty claims.role)]
  rfl

theorem includesRole_iff (role : Role) : includesRole (roleText role) = true ↔ role ∈ admins := by
  cases role <;> decide

/-! ## The guards -/

/-- The chain leaves the request its token; its `user` is of a verified one if the chain has the
guard for it, and else as it was. -/
theorem runGuards_user {signed : List Jwt} {route : RouteMetadata} {now : ℤ} {guards : List Guard}
    {request request' : GatewayRequest} {redis : Redis} (hprivate : route.isPublic = false)
    (h : (runGuards signed route now guards request redis).1 = .ok request') :
    request'.authorization = request.authorization ∧
      (.gatewayAuth ∈ guards → ∃ token claims, request.authorization = some token ∧
        verify signed token now = some claims ∧ request'.user = some claims) ∧
      (.gatewayAuth ∉ guards → request'.user = request.user) := by
  induction guards generalizing request redis with
  | nil =>
    obtain rfl := Except.ok.inj h
    simp
  | cons guard guards ih =>
    cases guard with
    | gatewayAuth =>
      rw [runGuards] at h
      cases hauth : authGuard signed route request now with
      | error e => simp [hauth] at h
      | ok authorized =>
        simp only [hauth] at h
        obtain ⟨hsame, hlater, hnone⟩ := ih h
        obtain ⟨token, claims, htoken, hverify, -, rfl⟩ := authGuard_eq_ok hprivate hauth
        refine ⟨hsame, fun _ => ?_, fun hnot => absurd List.mem_cons_self hnot⟩
        by_cases hagain : .gatewayAuth ∈ guards
        · exact hlater hagain
        · exact ⟨token, claims, htoken, hverify, hnone hagain⟩
    | rateLimit =>
      rw [runGuards] at h
      split at h
      · exact absurd h (by simp)
      · obtain ⟨hsame, hlater, hnone⟩ := ih h
        refine ⟨hsame, fun hmem => hlater ?_, fun hnot => hnone ?_⟩
        · simpa using hmem
        · exact fun hmem => hnot (List.mem_cons_of_mem _ hmem)

/-- A route that is not public has the guard. -/
theorem gatewayAuth_mem {route : GatewayRoute} (h : route.metadata.isPublic = false) :
    .gatewayAuth ∈ route.metadata.classGuards ++ route.metadata.methodGuards := by
  cases route <;> first | exact absurd h (by decide) | decide

/-- A request that goes on to a service is a `POST`, or carries the claims of a token. -/
theorem forwarded_user {s : Access} {route : GatewayRoute} {ip : Option String}
    {authorization : Option Jwt} {id : String} {request : GatewayRequest} {params : ForwardParams}
    (haccepted : (canActivate s.signed s.redis route (incoming ip authorization) s.clock).1 =
      .ok request)
    (hforwarded : route.forwarded id = some params) : params.method = .post ∨
      ∃ token claims, authorization = some token ∧
        verify s.signed token s.clock = some claims ∧ request.user = some claims := by
  cases hpublic : route.metadata.isPublic with
  | true =>
    left
    cases route with
    | register | login =>
      obtain rfl := Option.some.inj hforwarded
      rfl
    | health => cases hforwarded
    | _ => exact absurd hpublic (by decide)
  | false => exact Or.inr ((runGuards_user hpublic haccepted).2.1 (gatewayAuth_mem hpublic))

/-! ## What is shown -/

/-- The gateway lets the request through and sends it on to the user service, whose answer shows
the accounts. -/
def Shows (env : UserEnv) (s : Access) (route : GatewayRoute) (ip : Option String)
    (authorization : Option Jwt) (id : String) (call : UserCall) (shown : List UserResponse) :
    Prop :=
  ∃ request params,
    (canActivate s.signed s.redis route (incoming ip authorization) s.clock).1 = .ok request ∧
      route.forwarded id = some params ∧ params.service = .user ∧
      params.answered = some call.target ∧
      call.answer env (sentHeaders env.serviceToken request.user) s.users = .ok shown

/-- Who may be shown the account : who registers it, who knows its password, and who has a valid
token issued for it or for an admin. -/
def UserCall.Entitled (env : UserEnv) (s : Access) (authorization : Option Jwt)
    (account : UserResponse) : UserCall → Prop
  | .register dto => account.id = s.users.uuids ∧ account.email = dto.email
  | .login dto => ∃ row ∈ s.users.users, account = toUserResponse row.load ∧
    row.email = dto.email ∧ env.passwords.compare dto.password row.passwordHash = true
  | _ => ∃ token claims, authorization = some token ∧
    verify s.signed token s.clock = some claims ∧
      (account.id = claims.sub ∨ claims.role ∈ admins)

section

variable {env : UserEnv} {db : UserDb} {claims : JwtClaims} {account : UserResponse}

theorem id_of_getUserById {id : Uuid} (h : getUserById db id = .ok account) : account.id = id := by
  simp only [getUserById, getUserEntity, findById, bind_eq_ok, pure_eq_ok] at h
  cases hfind : db.users.find? (·.id == id) with
  | none => simp [hfind] at h
  | some row =>
    obtain rfl : toUserResponse row.load = account := by simpa [hfind] using h
    have hid : row.id = id := by simpa using List.find?_some hfind
    exact hid

theorem withUuid_eq_ok {α : Type} {id : String} {method : Uuid → Except HttpException α} {a : α} :
    withUuid id method = .ok a ↔ ∃ u, uuidIn id = some u ∧ method u = .ok a := by
  unfold withUuid
  cases uuidIn id with
  | none => simp
  | some u => simp [mapError_eq_ok]

/-- An account found by the text of the claims is the user's own. -/
theorem id_of_own {id : String} (hsub : claims.sub < 256 ^ 16) (hid : uuidText claims.sub = id)
    (h : withUuid id (getUserById db) = .ok account) : account.id = claims.sub := by
  obtain ⟨u, hu, hfound⟩ := withUuid_eq_ok.mp h
  rw [← hid, uuidIn_uuidText, Nat.mod_eq_of_lt hsub] at hu
  obtain rfl := Option.some.inj hu
  exact id_of_getUserById hfound

/-- The checks of the controllers, where the headers are those of the claims. -/
theorem own_or_admin {call : UserCall} (hsub : claims.sub < 256 ^ 16)
    (hcall : call.target.1.method ≠ .post) {shown : List UserResponse}
    (h : call.answer env (sentHeaders env.serviceToken (some claims)) db = .ok shown) :
    ∀ account ∈ shown, account.id = claims.sub ∨ claims.role ∈ admins := by
  have hcurrent := currentUser_sentHeaders env.serviceToken claims
  cases call with
  | register | login => exact absurd rfl hcall
  | health =>
    obtain rfl := Except.ok.inj h
    simp
  | me =>
    simp only [UserCall.answer, hcurrent, bind_eq_ok, pure_eq_ok] at h
    obtain ⟨-, -, account, hfound, rfl⟩ := h
    rw [List.forall_mem_singleton]
    exact Or.inl (id_of_own hsub rfl hfound)
  | list role =>
    simp only [UserCall.answer, hcurrent, bind_eq_ok, throw_bind, throw_if_eq_ok, Option.any_some,
      Bool.not_eq_true', Bool.not_eq_false, includesRole_iff] at h
    exact fun _ _ => Or.inr h.choose_spec.2.1
  | getById id =>
    simp only [UserCall.answer, hcurrent, bind_eq_ok, throw_bind, throw_if_eq_ok, Option.any_some,
      pure_eq_ok] at h
    obtain ⟨-, -, hcheck, account, hfound, rfl⟩ := h
    rw [List.forall_mem_singleton]
    by_cases hid : uuidText claims.sub = id
    · exact Or.inl (id_of_own hsub hid hfound)
    · right
      rw [← includesRole_iff]
      simpa [hid] using hcheck
  | updateRole id role =>
    simp only [UserCall.answer, bind_eq_ok, throw_bind, throw_unless_eq_ok] at h
    obtain ⟨-, -, hrole, -⟩ := h
    have hsystem : roleText claims.role = "system_admin" := by
      simpa [ZoneService.rolesGuard, sentHeaders, buildHeaders,
        present_some (roleText_ne_empty claims.role)] using hrole
    exact fun _ _ => Or.inr ((includesRole_iff _).mp (by rw [hsystem]; decide))

/-- A login shows the account of its email, whose password it knows. -/
theorem account_of_login {passwords : Passwords} {dto : LoginDto} {now : ℤ} {token : Jwt}
    (h : login passwords db dto now = .ok (token, account)) :
    ∃ row ∈ db.users, account = toUserResponse row.load ∧ row.email = dto.email ∧
      passwords.compare dto.password row.passwordHash = true := by
  unfold login findByEmail at h
  cases hfind : db.users.find? (·.email == dto.email) with
  | none => simp [hfind] at h
  | some row =>
    simp only [hfind, Option.map_some, throw_bind, throw_unless_eq_ok, pure_eq_ok] at h
    obtain ⟨hcompare, heq⟩ := h
    obtain ⟨-, rfl⟩ := Prod.mk.inj heq
    exact ⟨row, List.mem_of_find?_eq_some hfind, rfl, by simpa using List.find?_some hfind,
      hcompare⟩

/-- A request that is answered by a method for `POST` registers or logs in. -/
theorem entitled_of_post {call : UserCall} {s : Access} {headers : RequestHeaders}
    {authorization : Option Jwt} {shown : List UserResponse}
    (hcall : call.target.1.method = .post) (h : call.answer env headers s.users = .ok shown) :
    ∀ account ∈ shown, call.Entitled env s authorization account := by
  cases call with
  | register dto =>
    simp only [UserCall.answer, bind_eq_ok, mapError_eq_ok, pure_eq_ok] at h
    obtain ⟨⟨token, user⟩, hregister, rfl⟩ := h
    rw [List.forall_mem_singleton]
    rcases register_cases env.roleColumn env.passwords env.salt s.users dto env.clock with
      heq | heq
    · rw [heq] at hregister
      exact absurd hregister (by simp)
    · rw [heq] at hregister
      obtain ⟨-, rfl⟩ := Prod.mk.inj (Except.ok.inj hregister)
      exact ⟨rfl, rfl⟩
  | login dto =>
    simp only [UserCall.answer, bind_eq_ok, mapError_eq_ok, pure_eq_ok] at h
    obtain ⟨⟨token, user⟩, hlogin, rfl⟩ := h
    rw [List.forall_mem_singleton]
    exact account_of_login hlogin
  | _ => exact absurd hcall (by simp [UserCall.target, endpoint])

end

/-! ## Runs -/

section

variable {roleColumn : UserEntity → Role} {passwords : Passwords}

/-- The ids in the tokens were drawn. -/
structure SignedDrawn (s : Access) : Prop where
  keyed : UsersKeyed s.users
  drawn : ∀ token ∈ s.signed, token.claims.sub < s.users.uuids

theorem uuids_le_accessStep (s : Access) (a : AccessAction) :
    s.users.uuids ≤ (accessStep roleColumn passwords s a).users.uuids := by
  cases usersMove roleColumn passwords s a with
  | same _ huuids | changed _ _ huuids => exact huuids.ge
  | added _ huuids => exact huuids ▸ Nat.le_succ _

theorem issue_drawn {s : Access} {a : AccessAction} {token : Jwt} (hkeyed : UsersKeyed s.users)
    (h : issue roleColumn passwords s a = some token) :
    token.claims.sub < (accessStep roleColumn passwords s a).users.uuids := by
  cases a with
  | register dto salt dbNow =>
    obtain ⟨⟨_, response⟩, hok, rfl⟩ := Option.map_eq_some_iff.mp h
    rw [toOption_eq_some] at hok
    rcases register_cases roleColumn passwords salt s.users dto ⟨s.clock, dbNow⟩ with heq | heq
    · rw [heq] at hok
      exact absurd hok (by simp)
    · have huuids : (accessStep roleColumn passwords s (.register dto salt dbNow)).users.uuids =
          s.users.uuids + 1 := congrArg (·.2.uuids) heq
      rw [heq] at hok
      obtain ⟨rfl, -⟩ := Prod.mk.inj (Except.ok.inj hok)
      exact huuids ▸ Nat.lt_succ_self _
  | login dto =>
    obtain ⟨⟨_, response⟩, hok, rfl⟩ := Option.map_eq_some_iff.mp h
    rw [toOption_eq_some] at hok
    obtain ⟨row, hrow, rfl⟩ := login_eq_ok hok
    exact hkeyed.fresh row hrow
  | _ => exact absurd h (by simp [issue])

theorem signedDrawn_run {users : UserDb} (hkeyed : UsersKeyed users) (clock : ℤ)
    (as : List AccessAction) :
    SignedDrawn (run (accessStep roleColumn passwords) (.start users clock) as) := by
  have hstep : ∀ (s : Access) (a : AccessAction), True → SignedDrawn s →
      SignedDrawn (accessStep roleColumn passwords s a) := by
    refine fun s a _ h => ⟨usersKeyed_step h.keyed a, fun token htoken => ?_⟩
    rcases List.mem_append.mp htoken with hold | hnew
    · exact (h.drawn token hold).trans_le (uuids_le_accessStep s a)
    · exact issue_drawn h.keyed (Option.mem_toList.mp hnew)
  have hstart : SignedDrawn (.start users clock) := ⟨hkeyed, by simp [Access.start]⟩
  exact run_invariant (fun _ => True) hstep hstart fun _ _ => trivial

end

/-- Whatever registrations, logins, changes of roles, requests and times came before : the
accounts that the user service's answer to a forwarded request shows are of the user who registers
or logs in with it, or the request has a valid token, which was issued for the account's user, or
for a user who was an admin then. The ids are those of UUIDs, of 128 bits. -/
theorem accounts_private (env : UserEnv) (users : UserDb) (hkeyed : UsersKeyed users) (clock : ℤ)
    (as : List AccessAction)
    (huuids : (run (accessStep env.roleColumn env.passwords) (.start users clock)
      as).users.uuids ≤ 256 ^ 16)
    (route : GatewayRoute) (ip : Option String) (authorization : Option Jwt) (id : String)
    (call : UserCall) (shown : List UserResponse)
    (hshows : Shows env (run (accessStep env.roleColumn env.passwords) (.start users clock) as)
      route ip authorization id call shown) :
    ∀ account ∈ shown, call.Entitled env
      (run (accessStep env.roleColumn env.passwords) (.start users clock) as) authorization
      account := by
  have hinv : SignedDrawn (run (accessStep env.roleColumn env.passwords) (.start users clock) as) :=
    signedDrawn_run hkeyed clock as
  generalize run (accessStep env.roleColumn env.passwords) (.start users clock) as = s at *
  obtain ⟨request, params, haccepted, hforwarded, -, hanswered, hanswer⟩ := hshows
  obtain ⟨-, hmethod, -⟩ := dispatch_eq_some hanswered
  by_cases hpost : call.target.1.method = .post
  · exact entitled_of_post hpost hanswer
  · rcases forwarded_user haccepted hforwarded with hpost' | ⟨token, claims, rfl, hverify, huser⟩
    · exact absurd (hmethod.trans hpost') hpost
    · rw [huser] at hanswer
      obtain ⟨hsigned, -, hclaims⟩ := verify_eq_some hverify
      have hsub : claims.sub < 256 ^ 16 := hclaims ▸ (hinv.drawn token hsigned).trans_le huuids
      have hshown := own_or_admin hsub hpost hanswer
      cases call with
      | register | login => exact absurd rfl hpost
      | _ => exact fun account haccount =>
          ⟨token, claims, rfl, hverify, hshown account haccount⟩

/-- The service's token and the passwords as they are. -/
def plainEnv : UserEnv :=
  ⟨some "internal-service-token", (·.roleName), plainPasswords, "", id, ⟨1000, 1000⟩⟩

/-- The administrator who was made a student lists the users. -/
theorem lowered_shows : Shows plainEnv
    (run (accessStep plainEnv.roleColumn plainEnv.passwords) (.start oneAdmin 1000) lowered)
    .listUsers (some "172.18.0.2") (some adminToken) "" (.list none)
    [⟨7, "admin@example.com", "Admin", .student, 0, 2000⟩] := by
  obtain ⟨request, haccepted, huser, -⟩ :=
    accepts_asAdmin .listUsers rfl rfl rfl verify_adminToken rfl (some "172.18.0.2")
  refine ⟨request, _, haccepted, rfl, rfl, by decide +kernel, ?_⟩
  rw [huser]
  decide +kernel

/-- It shows him his account with the token of his login. -/
theorem accounts_private_lowered : ∃ token claims, some adminToken = some token ∧
    verify (run (accessStep plainEnv.roleColumn plainEnv.passwords) (.start oneAdmin 1000)
      lowered).signed token 1000 = some claims ∧ (7 = claims.sub ∨ claims.role ∈ admins) := by
  have hkeyed : UsersKeyed oneAdmin := ⟨List.nodup_singleton _, by decide⟩
  exact accounts_private plainEnv oneAdmin hkeyed 1000 lowered (by decide) .listUsers
    (some "172.18.0.2") (some adminToken) "" _ _ lowered_shows _ (List.mem_singleton_self _)

end Qoms.Gateway
