import Qoms.Gateway
import Qoms.Routing

/-!
# The paths that the gateway forwards

A gateway route with a path parameter gets it decoded, and its handler puts it into the path that
`forward` requests from a service, as it is. Both sides match by the same rules (`dispatch`), and
the request goes through a URL in between. So the service's route of the same pattern answers,
with the same parameter, just when the parameter is a clean segment (`forwarded_iff`). `slash` is
a request that acts on another resource with another action.
-/

set_option autoImplicit false

namespace Qoms.Gateway

open Routing

/-! ## Routes and services -/

inductive HttpMethod
  | get
  | post
  | patch
  | delete
  deriving DecidableEq, Repr

/-- The services that `forward` knows. -/
inductive Service
  | user
  | zone
  | queue
  | reservation
  | notification
  | monitoring
  deriving DecidableEq, Repr

/-- A part of a decorator's path. -/
def part (text : String) : Part :=
  match text.toList with
  | ':' :: _ => .param
  | word => .word word

/-- A method's decorator, with the parts of the controller's path and of its own. -/
def endpoint (method : HttpMethod) (path : List String) : Endpoint HttpMethod :=
  ⟨method, path.map part⟩

/-- The decorators of the gateway's routes. -/
def GatewayRoute.endpoint : GatewayRoute → Endpoint HttpMethod
  | .health => Gateway.endpoint .get ["health"]
  | .register => Gateway.endpoint .post ["auth", "register"]
  | .login => Gateway.endpoint .post ["auth", "login"]
  | .me => Gateway.endpoint .get ["auth", "me"]
  | .ingest => Gateway.endpoint .post ["occupancy-events"]
  | .history => Gateway.endpoint .get ["occupancy-events", ":zoneId", "history"]
  | .latest => Gateway.endpoint .get ["telemetry", ":zoneId", "latest"]
  | .myNotifications => Gateway.endpoint .get ["notifications", "me"]
  | .markRead => Gateway.endpoint .patch ["notifications", ":id", "read"]
  | .joinQueue => Gateway.endpoint .post ["queues", ":zoneId", "join"]
  | .leaveQueue => Gateway.endpoint .post ["queues", ":zoneId", "leave"]
  | .myQueueState => Gateway.endpoint .get ["queues", ":zoneId", "me"]
  | .queueState => Gateway.endpoint .get ["queues", ":zoneId", "state"]
  | .createReservation => Gateway.endpoint .post ["reservations"]
  | .cancelReservation => Gateway.endpoint .delete ["reservations", ":id"]
  | .myReservations => Gateway.endpoint .get ["reservations", "me"]
  | .reservationsByZone => Gateway.endpoint .get ["reservations", "zone", ":zoneId"]
  | .listUsers => Gateway.endpoint .get ["users"]
  | .userById => Gateway.endpoint .get ["users", ":id"]
  | .patchRole => Gateway.endpoint .patch ["users", ":id", "role"]
  | .listZones => Gateway.endpoint .get ["zones"]
  | .getZone => Gateway.endpoint .get ["zones", ":id"]
  | .createZone => Gateway.endpoint .post ["zones"]
  | .updateZone => Gateway.endpoint .patch ["zones", ":id"]
  | .getZoneStatus => Gateway.endpoint .get ["zones", ":id", "status"]
  | .getZoneRules => Gateway.endpoint .get ["zones", ":id", "rules"]
  | .updateZoneRules => Gateway.endpoint .patch ["zones", ":id", "rules"]

/-- The gateway's routes, in the order of its controllers and of their methods. -/
def gatewayRoutes : List GatewayRoute :=
  [.health, .register, .login, .me, .listUsers, .userById, .patchRole, .listZones, .getZone,
    .createZone, .updateZone, .getZoneStatus, .getZoneRules, .updateZoneRules, .joinQueue,
    .leaveQueue, .myQueueState, .queueState, .createReservation, .cancelReservation,
    .myReservations, .reservationsByZone, .myNotifications, .markRead, .ingest, .history, .latest]

/-- The routes of a service, in the order of its controllers and of their methods. -/
def Service.endpoints : Service → List (Endpoint HttpMethod)
  | .user =>
    [endpoint .get ["health"],
      endpoint .post ["auth", "register"],
      endpoint .post ["auth", "login"],
      endpoint .get ["auth", "me"],
      endpoint .get ["users"],
      endpoint .get ["users", ":id"],
      endpoint .patch ["users", ":id", "role"]]
  | .zone =>
    [endpoint .get ["health"],
      endpoint .get ["zones"],
      endpoint .get ["zones", ":id"],
      endpoint .post ["zones"],
      endpoint .patch ["zones", ":id"],
      endpoint .get ["zones", ":id", "status"],
      endpoint .get ["zones", ":id", "rules"],
      endpoint .patch ["zones", ":id", "rules"]]
  | .queue =>
    [endpoint .get ["health"],
      endpoint .post ["queues", ":zoneId", "join"],
      endpoint .post ["queues", ":zoneId", "leave"],
      endpoint .get ["queues", ":zoneId", "me"],
      endpoint .get ["queues", ":zoneId", "state"]]
  | .reservation =>
    [endpoint .get ["health"],
      endpoint .post ["reservations"],
      endpoint .delete ["reservations", ":id"],
      endpoint .get ["reservations", "me"],
      endpoint .get ["reservations", "zone", ":zoneId"]]
  | .notification =>
    [endpoint .get ["health"],
      endpoint .get ["notifications", "me"],
      endpoint .patch ["notifications", ":id", "read"]]
  | .monitoring =>
    [endpoint .get ["health"],
      endpoint .post ["occupancy-events"],
      endpoint .get ["occupancy-events", ":zoneId", "history"],
      endpoint .get ["telemetry", ":zoneId", "latest"]]

/-! ## Forwarding -/

/-- The target of a call of `forward`. -/
structure ForwardParams where
  service : Service
  method : HttpMethod
  path : String

/-- What the handler of a route forwards, where `id` is its path parameter, if it has one. -/
def GatewayRoute.forwarded (id : String) : GatewayRoute → Option ForwardParams
  | .health => none
  | .register => some ⟨.user, .post, "/auth/register"⟩
  | .login => some ⟨.user, .post, "/auth/login"⟩
  | .me => some ⟨.user, .get, "/auth/me"⟩
  | .ingest => some ⟨.monitoring, .post, "/occupancy-events"⟩
  | .history => some ⟨.monitoring, .get, s!"/occupancy-events/{id}/history"⟩
  | .latest => some ⟨.monitoring, .get, s!"/telemetry/{id}/latest"⟩
  | .myNotifications => some ⟨.notification, .get, "/notifications/me"⟩
  | .markRead => some ⟨.notification, .patch, s!"/notifications/{id}/read"⟩
  | .joinQueue => some ⟨.queue, .post, s!"/queues/{id}/join"⟩
  | .leaveQueue => some ⟨.queue, .post, s!"/queues/{id}/leave"⟩
  | .myQueueState => some ⟨.queue, .get, s!"/queues/{id}/me"⟩
  | .queueState => some ⟨.queue, .get, s!"/queues/{id}/state"⟩
  | .createReservation => some ⟨.reservation, .post, "/reservations"⟩
  | .cancelReservation => some ⟨.reservation, .delete, s!"/reservations/{id}"⟩
  | .myReservations => some ⟨.reservation, .get, "/reservations/me"⟩
  | .reservationsByZone => some ⟨.reservation, .get, s!"/reservations/zone/{id}"⟩
  | .listUsers => some ⟨.user, .get, "/users"⟩
  | .userById => some ⟨.user, .get, s!"/users/{id}"⟩
  | .patchRole => some ⟨.user, .patch, s!"/users/{id}/role"⟩
  | .listZones => some ⟨.zone, .get, "/zones"⟩
  | .getZone => some ⟨.zone, .get, s!"/zones/{id}"⟩
  | .createZone => some ⟨.zone, .post, "/zones"⟩
  | .updateZone => some ⟨.zone, .patch, s!"/zones/{id}"⟩
  | .getZoneStatus => some ⟨.zone, .get, s!"/zones/{id}/status"⟩
  | .getZoneRules => some ⟨.zone, .get, s!"/zones/{id}/rules"⟩
  | .updateZoneRules => some ⟨.zone, .patch, s!"/zones/{id}/rules"⟩

/-- The route of the service that answers, with its parameters : the path is that of the URL that
the request is sent to, after the service's address. -/
def ForwardParams.answered (params : ForwardParams) :
    Option (Endpoint HttpMethod × List (List Char)) :=
  dispatch params.method (Url.segments params.path.toList) params.service.endpoints

/-- The words of a path. -/
def words (texts : List String) : List (List Char) :=
  texts.map (·.toList)

/-- The service has the endpoint of the route, whose pattern is a parameter between these words,
and no earlier endpoint of the service takes its requests. -/
def ServedAs (route : GatewayRoute) (service : Service) (pre suf : List String) : Prop :=
  route.endpoint.parts = (words pre).map .word ++ .param :: (words suf).map .word ∧
    (∀ w ∈ words pre, Url.Word w) ∧ (∀ w ∈ words suf, Url.Word w) ∧
    route.endpoint ∈ service.endpoints ∧
    ∀ e ∈ service.endpoints.takeWhile (· ≠ route.endpoint),
      e.method ≠ route.endpoint.method ∨ apart e.parts route.endpoint.parts = true

instance (route : GatewayRoute) (service : Service) (pre suf : List String) :
    Decidable (ServedAs route service pre suf) :=
  inferInstanceAs (Decidable (_ ∧ _ ∧ _ ∧ _ ∧ _))

section

-- the text of a path is that of its words and of the parameter
attribute [local simp] words Url.join ToString.toString

/-- A handler with a path parameter asks the service for the endpoint that it has itself, and
puts the parameter between the words of its pattern. -/
theorem forwarded_path {route : GatewayRoute} (h : route.endpoint.parts.count .param = 1) :
    ∃ service pre suf, ServedAs route service pre suf ∧ ∀ value : List Char, ∃ path,
      route.forwarded (String.ofList value) = some ⟨service, route.endpoint.method, path⟩ ∧
        path.toList = Url.join (words pre) ++ '/' :: (value ++ Url.join (words suf)) := by
  cases route with
  | history =>
    exact ⟨.monitoring, ["occupancy-events"], ["history"], by decide, fun _ => ⟨_, rfl, by simp⟩⟩
  | latest =>
    exact ⟨.monitoring, ["telemetry"], ["latest"], by decide, fun _ => ⟨_, rfl, by simp⟩⟩
  | markRead =>
    exact ⟨.notification, ["notifications"], ["read"], by decide, fun _ => ⟨_, rfl, by simp⟩⟩
  | joinQueue =>
    exact ⟨.queue, ["queues"], ["join"], by decide, fun _ => ⟨_, rfl, by simp⟩⟩
  | leaveQueue =>
    exact ⟨.queue, ["queues"], ["leave"], by decide, fun _ => ⟨_, rfl, by simp⟩⟩
  | myQueueState =>
    exact ⟨.queue, ["queues"], ["me"], by decide, fun _ => ⟨_, rfl, by simp⟩⟩
  | queueState =>
    exact ⟨.queue, ["queues"], ["state"], by decide, fun _ => ⟨_, rfl, by simp⟩⟩
  | cancelReservation =>
    exact ⟨.reservation, ["reservations"], [], by decide, fun _ => ⟨_, rfl, by simp⟩⟩
  | reservationsByZone =>
    exact ⟨.reservation, ["reservations", "zone"], [], by decide, fun _ => ⟨_, rfl, by simp⟩⟩
  | userById =>
    exact ⟨.user, ["users"], [], by decide, fun _ => ⟨_, rfl, by simp⟩⟩
  | patchRole =>
    exact ⟨.user, ["users"], ["role"], by decide, fun _ => ⟨_, rfl, by simp⟩⟩
  | getZone | updateZone =>
    exact ⟨.zone, ["zones"], [], by decide, fun _ => ⟨_, rfl, by simp⟩⟩
  | getZoneStatus =>
    exact ⟨.zone, ["zones"], ["status"], by decide, fun _ => ⟨_, rfl, by simp⟩⟩
  | getZoneRules | updateZoneRules =>
    exact ⟨.zone, ["zones"], ["rules"], by decide, fun _ => ⟨_, rfl, by simp⟩⟩
  | _ => exact absurd h (by decide)

end

/-- For any client's request that the gateway matches by a route with the decoded path parameter
`value` : the request that the route's handler forwards is matched by the service's route of the
same method and pattern, with the same decoded parameter, exactly when `value` is clean (no
slash or backslash, no `?`, `#` or `%`, no tab or line break, neither `.` nor `..`) and, on the
routes that end with the parameter, does not end with a space or a control character. -/
theorem forwarded_iff (method : HttpMethod) (path : List (List Char)) (route : GatewayRoute)
    (value : List Char)
    (h : dispatch method path (gatewayRoutes.map (·.endpoint)) =
      some (route.endpoint, [value])) :
    ∃ params, route.forwarded (String.ofList value) = some params ∧
      (params.answered = some (route.endpoint, [value]) ↔
        Url.Clean value ∧ (route.endpoint.parts.getLast? = some .param →
          value.rdropWhile Url.isC0OrSpace = value)) := by
  obtain ⟨hone, hvalues⟩ := values_of_dispatch h
  obtain ⟨x, -, hx, hdecode⟩ := hvalues value (List.mem_singleton_self value)
  obtain ⟨service, pre, suf, ⟨hparts, hpre, hsuf, hmem, hbefore⟩, hforwarded⟩ :=
    forwarded_path hone.symm
  obtain ⟨path, hparams, hpath⟩ := hforwarded value
  refine ⟨_, hparams, ?_⟩
  rw [ForwardParams.answered, hpath, dispatch_path_iff hmem hbefore hparts hpre hsuf
    (Url.ne_nil_of_decode hx hdecode)]
  refine and_congr_right fun _ => ?_
  rw [hparts]
  cases suf with
  | nil => simp [words, Url.trimmed]
  | cons text suf =>
    -- the parameter is not the last part, and the end of the path is a word
    have hlast : ((words pre).map Part.word ++ Part.param ::
        (words (text :: suf)).map Part.word).getLast? ≠ some Part.param := by
      rw [List.append_cons, List.getLast?_append, List.getLast?_map,
        List.getLast?_eq_some_getLast (by simp [words])]
      simp
    rw [Url.trimmed, if_neg (by simp [words])]
    exact iff_of_true rfl fun h => absurd h hlast

/-- A client of a queue sends a slash and a question mark in the zone's id. -/
def slash : List (List Char) :=
  words ["queues", "7%2Fleave%3F", "join"]

/-- The gateway takes it for a join, of the queue `7/leave?`; the queue service is asked to
leave the queue `7`. -/
theorem slash_leaves :
    dispatch .post slash (gatewayRoutes.map (·.endpoint)) =
      some (GatewayRoute.joinQueue.endpoint, ["7/leave?".toList]) ∧
    (GatewayRoute.joinQueue.forwarded "7/leave?").map (·.answered) =
      some (some (GatewayRoute.leaveQueue.endpoint, ["7".toList])) := by
  decide +kernel

/-- A zone's id with a space and a letter that is not ASCII. -/
theorem forwarded_iff_spaced : ∃ params,
    GatewayRoute.getZoneStatus.forwarded "a ë" = some params ∧
      params.answered = some (GatewayRoute.getZoneStatus.endpoint, ["a ë".toList]) := by
  obtain ⟨params, hparams, hiff⟩ := forwarded_iff .get (words ["zones", "a%20%C3%AB", "status"])
    .getZoneStatus "a ë".toList (by decide +kernel)
  exact ⟨params, hparams, hiff.mpr ⟨by decide, by decide⟩⟩

end Qoms.Gateway
