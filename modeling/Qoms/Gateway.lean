import Qoms.RateLimit
import Qoms.User

/-!
# The API gateway

The routes of `apps/api-gateway` with what their decorators say (`metadata`), the two guards
(`authGuard`, `rateLimitGuard`), and the chain of the guards of a route (`canActivate`) : those
of the controller come before those of the method. `buildHeaders` are the headers the proxy
sends on, and `rolesGuard` is what a service's `RolesGuard` makes of them; `downstreamRoles` are
the roles of the services' routes that have one.

All requests come through nginx. It opens its own connection to the gateway, and the gateway
trusts no proxy, so `request.ip` is the address of nginx (`fromNginx`). The addresses that nginx
puts into headers are read nowhere.
-/

set_option autoImplicit false

namespace Qoms.Gateway

/-! ## Routes -/

/-- A guard of `@UseGuards`. -/
inductive Guard
  | gatewayAuth
  | rateLimit
  deriving DecidableEq, Repr

/-- What the decorators of a route and of its controller say. -/
structure RouteMetadata where
  isPublic : Bool
  roles : List Role
  ratePolicy : Option RatePolicyName
  classGuards : List Guard
  methodGuards : List Guard

/-- The routes, by controller. -/
inductive GatewayRoute
  | health
  | register
  | login
  | me
  | ingest
  | history
  | latest
  | myNotifications
  | markRead
  | joinQueue
  | leaveQueue
  | myQueueState
  | queueState
  | createReservation
  | cancelReservation
  | myReservations
  | reservationsByZone
  | listUsers
  | userById
  | patchRole
  | listZones
  | getZone
  | createZone
  | updateZone
  | getZoneStatus
  | getZoneRules
  | updateZoneRules
  deriving DecidableEq, Repr

/-- A method of `AuthController`. -/
def authRoute (isPublic : Bool) (ratePolicy : Option RatePolicyName)
    (methodGuards : List Guard) : RouteMetadata where
  isPublic := isPublic
  roles := []
  ratePolicy := ratePolicy
  classGuards := [.rateLimit]
  methodGuards := methodGuards

/-- A method of one of the proxy controllers. -/
def proxyRoute (roles : List Role) (ratePolicy : Option RatePolicyName) : RouteMetadata where
  isPublic := false
  roles := roles
  ratePolicy := ratePolicy
  classGuards := [.gatewayAuth, .rateLimit]
  methodGuards := []

/-- `"dining_admin", "coworking_admin", "system_admin"`. -/
def admins : List Role :=
  [.diningAdmin, .coworkingAdmin, .systemAdmin]

def GatewayRoute.metadata : GatewayRoute → RouteMetadata
  | .health => ⟨true, [], none, [], []⟩
  | .register => authRoute true (some .defaultWrite) []
  | .login => authRoute true (some .login) []
  | .me => authRoute false none [.gatewayAuth]
  | .ingest => proxyRoute admins (some .occupancyIngest)
  | .history => proxyRoute admins none
  | .latest => proxyRoute admins none
  | .myNotifications => proxyRoute [] none
  | .markRead => proxyRoute [] none
  | .joinQueue => proxyRoute [] (some .joinQueue)
  | .leaveQueue => proxyRoute [] (some .joinQueue)
  | .myQueueState => proxyRoute [] none
  | .queueState => proxyRoute [] none
  | .createReservation => proxyRoute [] (some .createReservation)
  | .cancelReservation => proxyRoute [] (some .createReservation)
  | .myReservations => proxyRoute [] none
  | .reservationsByZone => proxyRoute [] none
  | .listUsers => proxyRoute admins none
  | .userById => proxyRoute [] none
  | .patchRole => proxyRoute [.systemAdmin] (some .adminWrite)
  | .listZones => proxyRoute [] none
  | .getZone => proxyRoute [] none
  | .createZone => proxyRoute admins (some .adminWrite)
  | .updateZone => proxyRoute admins (some .adminWrite)
  | .getZoneStatus => proxyRoute [] none
  | .getZoneRules => proxyRoute [] none
  | .updateZoneRules => proxyRoute admins (some .adminWrite)

/-- `@Roles` of the route the request is sent on to; `[]` where it has none. -/
def GatewayRoute.downstreamRoles : GatewayRoute → List Role
  | .patchRole => [.systemAdmin]
  | .createZone => admins
  | .updateZone => admins
  | .updateZoneRules => admins
  | _ => []

/-! ## Guards -/

/-- What the guards read of a request, and the `user` that one of them puts there. A header
that does not start with `Bearer ` is as none; one whose rest is no signed token is a token that
was not signed. -/
structure GatewayRequest where
  ip : Option String
  authorization : Option Jwt
  user : Option JwtClaims

/-- A request that nginx sends on : the TCP peer is nginx. -/
def fromNginx (nginx : String) (authorization : Option Jwt) : GatewayRequest where
  ip := some nginx
  authorization := authorization
  user := none

/-- `GatewayAuthGuard.canActivate`; it returns the request with its `user`. -/
def authGuard (signed : List Jwt) (route : RouteMetadata) (request : GatewayRequest) (now : ℤ) :
    Except HttpException GatewayRequest := do
  if route.isPublic then return request
  let some token := request.authorization | throw (.unauthorized "Missing bearer token")
  let some claims := verify signed token now | throw (.unauthorized "Invalid token")
  if route.roles ≠ [] ∧ claims.role ∉ route.roles then throw (.forbidden "Insufficient role")
  return { request with user := some claims }

/-- `String(request.user?.sub ?? request.ip ?? "anonymous")`. -/
def principal (request : GatewayRequest) : String :=
  ((request.user.map fun claims => uuidText claims.sub).or request.ip).getD "anonymous"

/-- `RateLimitGuard.canActivate`. -/
def rateLimitGuard (redis : Redis) (route : RouteMetadata) (request : GatewayRequest) (now : ℤ) :
    Except HttpException Unit × Redis :=
  let policy := route.ratePolicy.getD .defaultRead
  match RateLimitService.check redis policy (principal request) now with
  | (.allowed, redis) => (.ok (), redis)
  | (.denied retryAfterSeconds, redis) =>
    (.error (.tooManyRequests "Too Many Requests" retryAfterSeconds), redis)

/-- The guards, one after another; the first that throws ends the request. -/
def runGuards (signed : List Jwt) (route : RouteMetadata) (now : ℤ) :
    List Guard → GatewayRequest → Redis → Except HttpException GatewayRequest × Redis
  | [], request, redis => (.ok request, redis)
  | .gatewayAuth :: guards, request, redis =>
    match authGuard signed route request now with
    | .error e => (.error e, redis)
    | .ok request => runGuards signed route now guards request redis
  | .rateLimit :: guards, request, redis =>
    match rateLimitGuard redis route request now with
    | (.error e, redis) => (.error e, redis)
    | (.ok (), redis) => runGuards signed route now guards request redis

/-- Whether the gateway accepts a request. -/
def canActivate (signed : List Jwt) (redis : Redis) (route : GatewayRoute)
    (request : GatewayRequest) (now : ℤ) : Except HttpException GatewayRequest × Redis :=
  runGuards signed route.metadata now (route.metadata.classGuards ++ route.metadata.methodGuards)
    request redis

theorem authGuard_eq_ok {signed : List Jwt} {route : RouteMetadata}
    {request request' : GatewayRequest} {now : ℤ} (hprivate : route.isPublic = false)
    (h : authGuard signed route request now = .ok request') :
    ∃ token claims, request.authorization = some token ∧
      verify signed token now = some claims ∧ (route.roles ≠ [] → claims.role ∈ route.roles) ∧
      request' = { request with user := some claims } := by
  unfold authGuard at h
  cases htoken : request.authorization with
  | none => simp [hprivate, htoken] at h
  | some token =>
    cases hverify : verify signed token now with
    | none => simp [hprivate, htoken, hverify] at h
    | some claims =>
      simp only [hprivate, htoken, hverify] at h
      obtain ⟨hrole, rfl⟩ : (route.roles ≠ [] → claims.role ∈ route.roles) ∧
          { request with user := some claims } = request' := by simpa [htoken] using h
      exact ⟨token, claims, rfl, hverify, hrole, by rw [htoken]⟩

theorem rateLimitGuard_of_isAllowed {redis : Redis} {route : RouteMetadata}
    {request : GatewayRequest} {now : ℤ}
    (h : (RateLimitService.check redis (route.ratePolicy.getD .defaultRead) (principal request)
      now).1.isAllowed = true) : (rateLimitGuard redis route request now).1 = .ok () := by
  simp only [rateLimitGuard]
  generalize RateLimitService.check redis (route.ratePolicy.getD .defaultRead)
    (principal request) now = checked at h ⊢
  obtain ⟨result, redis'⟩ := checked
  cases result with
  | allowed => rfl
  | denied retryAfterSeconds => exact absurd h Bool.false_ne_true

/-! ## Sending a request on -/

/-- The headers of `buildHeaders` that say who the user is. -/
structure UserHeaders where
  userId : String
  userRole : Role
  userEmail : String

/-- `buildHeaders`; without a user these headers are missing. -/
def buildHeaders (user : Option JwtClaims) : Option UserHeaders :=
  user.map fun claims => ⟨uuidText claims.sub, claims.role, claims.email⟩

/-- `RolesGuard.canActivate`. -/
def rolesGuard (requiredRoles : List Role) (headers : Option UserHeaders) : Bool :=
  requiredRoles = [] || headers.any fun h => decide (h.userRole ∈ requiredRoles)

end Qoms.Gateway
