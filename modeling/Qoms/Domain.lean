import Mathlib.Data.Int.Notation
import Mathlib.Data.Nat.Notation
import Mathlib.Tactic.SplitIfs

/-!
# The shared domain

What `packages/shared` exports : roles, zone types and statuses, the Kafka event types,
the event envelope (`createEventEnvelope`), and the user context a request carries.

Times are integers : milliseconds since the epoch for JavaScript dates, microseconds for
`timestamptz` columns that the database fills in. `new Date(t)` is an invalid date beyond
`maxTime`, and every comparison with an invalid date is false (`JsDate.gt`).
-/

set_option autoImplicit false

namespace Qoms

/-! ## Identifiers and times -/

/-- The value of a `uuid`. The services only compare them and draw fresh ones
(`uuidv4`, `gen_random_uuid`). -/
abbrev Uuid := ℕ

/-- The largest time value of a JavaScript date. -/
def maxTime : ℤ := 8640000000000000

/-- A JavaScript date; `none` is the invalid date. -/
abbrev JsDate := Option ℤ

/-- `new Date(t)` for a number `t`. -/
def JsDate.ofTime (t : ℤ) : JsDate :=
  if -maxTime ≤ t ∧ t ≤ maxTime then some t else none

/-- `a > b` on dates. -/
def JsDate.gt : JsDate → JsDate → Bool
  | some a, some b => b < a
  | _, _ => false

/-- The two clocks a step reads : the service's, in milliseconds, and the database's, in
microseconds. -/
structure Clock where
  now : ℤ
  dbNow : ℤ
  deriving DecidableEq, Repr

/-! ## Roles, zones and events -/

/-- `ROLES`. -/
inductive Role
  | student
  | employee
  | diningAdmin
  | coworkingAdmin
  | systemAdmin
  deriving DecidableEq, Repr

/-- `ZONE_TYPES`. -/
inductive ZoneType
  | diningZone
  | coworkingZone
  deriving DecidableEq, Repr

/-- `ZONE_STATUSES`. -/
inductive ZoneStatus
  | «open»
  | closed
  | overloaded
  deriving DecidableEq, Repr

/-- `KAFKA_EVENTS`. -/
inductive KafkaEventType
  | occupancyUpdated
  | zoneStatusChanged
  | zoneOverloaded
  | queueJoined
  | queueLeft
  | queueStatusChanged
  | reservationCreated
  | reservationCancelled
  deriving DecidableEq, Repr

/-- The user a request is made for, read off the gateway's headers. -/
structure RequestUserContext where
  userId : Uuid
  role : Role
  deriving DecidableEq, Repr

/-- The envelope of a Kafka event. `K` is how the entity's key is spelled : a zone id, or
the raw text of a request. -/
structure EventEnvelope (K TPayload : Type) where
  eventId : Uuid
  eventType : KafkaEventType
  version : ℕ
  occurredAt : ℤ
  sourceService : String
  correlationId : Uuid
  entityId : K
  payload : TPayload
  deriving DecidableEq, Repr

/-- `createEventEnvelope`, at the time `now`; no caller passes a version or a time. -/
def createEventEnvelope {K TPayload : Type} (now : ℤ) (eventId : Uuid)
    (eventType : KafkaEventType) (sourceService : String) (correlationId : Uuid) (entityId : K)
    (payload : TPayload) : EventEnvelope K TPayload where
  eventId := eventId
  eventType := eventType
  version := 1
  occurredAt := now
  sourceService := sourceService
  correlationId := correlationId
  entityId := entityId
  payload := payload

/-- The payload of an `occupancy_updated` event : a JSON record, of which the consumers read
these fields. -/
structure OccupancyPayload where
  zoneId : Option String
  occupancy : Option ℤ
  currentOccupancy : Option ℤ
  source : Option String
  sourceEventId : Option Uuid
  observedAt : Option ℤ
  deriving DecidableEq, Repr

/-- The value of a Kafka message as a consumer finds it : absent, not JSON, an envelope of
a type that is not one of `KAFKA_EVENTS`, or an envelope. -/
inductive MessageValue (K TPayload : Type)
  | absent
  | malformed
  | unlisted
  | envelope (event : EventEnvelope K TPayload)
  deriving DecidableEq, Repr

/-- How a call to the broker or the database ends : acknowledged; failed, with the text of
its error; or accepted and failed all the same, as when the acknowledgement is lost. -/
inductive CallOutcome
  | acknowledged
  | failed (message : String)
  | unacknowledged (message : String)
  deriving DecidableEq, Repr

/-- The call took effect. -/
def CallOutcome.accepted : CallOutcome → Bool
  | .acknowledged => true
  | .failed _ => false
  | .unacknowledged _ => true

/-- What a request handler throws : an exception of the framework with its text, a failed
call to another service, or a failed database statement. -/
inductive HttpError
  | badRequest (message : String)
  | notFound (message : String)
  | upstream
  | database
  deriving DecidableEq, Repr

end Qoms
