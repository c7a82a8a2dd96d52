import PingWaf.Waf.Proof.BodyTruth
import PingWaf.Waf.Proof.Strengthen
import PingWaf.Plugin.Proof.Challenge
import PingWaf.Routing.Proof.Pinning
import PingWaf.Routing.Proof.HostIndex
import PingWaf.Routing.Proof.Select
import PingWaf.Plugin.Proof.ClientIp
import PingWaf.Plugin.Proof.RateWindow
import PingWaf.Plugin.Proof.Exempt
import PingWaf.Challenge.Proof.Foreign
import PingWaf.Challenge.Proof.Replay
import PingWaf.Cache.Proof.Ceiling
import PingWaf.Cache.Proof.Private
import PingWaf.Waf.Proof.Negation
import PingWaf.Waf.Proof.RoundTrip
import PingWaf.Waf.Proof.Observe
import PingWaf.Waf.Proof.Order
import PingWaf.Waf.Proof.Marker
import PingWaf.Plugin.Proof.Rewrite
import PingWaf.Routing.Proof.Frame
import PingWaf.Agent.Proof.Lost
import PingWaf.Agent.Proof.Crash
import PingWaf.Plugin.Proof.Limit
import PingWaf.Upstream.Proof.Discipline
import PingWaf.Upstream.Proof.Evidence
import PingWaf.Upstream.Proof.Load
import PingWaf.Routing.Proof.Host
import PingWaf.Server.Proof.Registry
import PingWaf.Server.Proof.Refresh
import PingWaf.Auth.Proof.Access
import PingWaf.Auth.Proof.ClaimHeaders
import PingWaf.Server.Proof.ResponseReplace
import PingWaf.Cache.Proof.Quota
import PingWaf.Cache.Proof.Purge
import PingWaf.Waf.Proof.Decode
import PingWaf.Waf.Proof.Container
import PingWaf.Waf.Proof.Unpack
import PingWaf.Waf.Proof.SearchPhrase
import PingWaf.Waf.Proof.Signatures
import PingWaf.Challenge.Proof.Accounting
import PingWaf.Challenge.Proof.Escalate
import PingWaf.Agent.Proof.Restart
import PingWaf.Plugin.Proof.Strict
import PingWaf.Auth.Proof.Live
import PingWaf.Plugin.Proof.RewriteBody
import PingWaf.Auth.Proof.Jwt
import PingWaf.Cache.Proof.Account
import PingWaf.Cache.Proof.FileFormat
import PingWaf.Cache.Proof.DiskSize
import PingWaf.Routing.Proof.InFlight
import PingWaf.Waf.Proof.ScanBudget
import PingWaf.Challenge.Proof.CookieLines
import PingWaf.Plugin.Proof.LogBody
import PingWaf.Waf.Proof.Canonical
import PingWaf.Server.Proof.Streams
import PingWaf.Server.Proof.Subscription
import PingWaf.Waf.Proof.ScoreRuns
import PingWaf.Waf.Proof.Slices
