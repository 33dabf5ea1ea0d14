import Qoms.Run
import Qoms.Backlog
import Qoms.Table
import Qoms.Guards
import Qoms.Domain
import Qoms.Database
import Qoms.Outbox
import Qoms.Reservation
import Qoms.ReservationOverlap
import Qoms.ReservationRace
import Qoms.Queue
import Qoms.QueueRace
import Qoms.Owners
import Qoms.Zone
import Qoms.ZoneRace
import Qoms.Monitoring
import Qoms.SignalBacklog
import Qoms.Log
import Qoms.Telemetry
import Qoms.Notification
import Qoms.NotificationDelivery
import Qoms.OutboxFlush
import Qoms.OutboxBacklog
import Qoms.OutboxAttempts
import Qoms.OutboxOrder
import Qoms.OutboxReplay
import Qoms.Notices
import Qoms.QueueNotices
import Qoms.ReservationNotices
import Qoms.EventualNotices
import Qoms.QueueLength
import Qoms.ZoneDelivery
import Qoms.NotificationRace
import Qoms.NotificationInbox
import Qoms.Pipeline
import Qoms.ZoneAdmin
import Qoms.ZoneOverload
import Qoms.Cache
import Qoms.ZoneCache
import Qoms.ZoneControl
import Qoms.OverloadNotices
import Qoms.ReservationCache
import Qoms.ReadThrough
import Qoms.CacheAge
import Qoms.Admission
import Qoms.ZoneReplay
import Qoms.QueuePosition
import Qoms.QueueRejoin
import Qoms.ReservationBounds
import Qoms.TokenBucket
import Qoms.Redis
import Qoms.RateLimit
import Qoms.RateLimitBucket
import Qoms.RateLimitRace
import Qoms.User
import Qoms.Gateway
import Qoms.RateLimitWindow
import Qoms.GatewayClients
import Qoms.RoleAccess
import Qoms.Accounts
import Qoms.RateLimitLog
import Qoms.RateLimitLeaky
import Qoms.RateLimitRetry
import Qoms.RateLimitIsolation
import Qoms.TelemetryLatest
import Qoms.PublishRace
import Qoms.RoleUpdate
import Qoms.Routing
import Qoms.GatewayPaths
import Qoms.Url
import Qoms.Json
import Qoms.EventText
import Qoms.AccountPrivacy
