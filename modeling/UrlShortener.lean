import UrlShortener.Proof.Aggregates
import UrlShortener.Proof.Atomicity
import UrlShortener.Proof.AuditLog
import UrlShortener.Proof.CliProcess
import UrlShortener.Proof.ClickReads
import UrlShortener.Proof.ClickSql
import UrlShortener.Proof.Consistency
import UrlShortener.Proof.Expiry
import UrlShortener.Proof.Frames
import UrlShortener.Proof.HostHeader
import UrlShortener.Proof.Interleaving
import UrlShortener.Proof.Limiter
import UrlShortener.Proof.Liveness
import UrlShortener.Proof.MetricsText
import UrlShortener.Proof.Migrations
import UrlShortener.Proof.Postgres
import UrlShortener.Proof.Query
import UrlShortener.Proof.RedirectForms
import UrlShortener.Proof.RedisStore
import UrlShortener.Proof.Retention
import UrlShortener.Proof.RollingCounts
import UrlShortener.Proof.RouteLabels
import UrlShortener.Proof.SecurityAlone
import UrlShortener.Proof.ServiceClients
import UrlShortener.Proof.StateAssert
import UrlShortener.Proof.StatsJson
import UrlShortener.Proof.StatsWindow
import UrlShortener.Proof.StorageConfig
import UrlShortener.Proof.StoredHashes
import UrlShortener.Proof.Tokens
import UrlShortener.Proof.TtlMap
import UrlShortener.Proof.ViewText
import UrlShortener.Proof.Worker
