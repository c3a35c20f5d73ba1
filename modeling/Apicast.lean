import Apicast.Backend.Decisions
import Apicast.Batcher.Conservation
import Apicast.Configuration.OidcPairing
import Apicast.LazyLoader
import Apicast.MappingRules
import Apicast.OpenIdConnect.TokenIsolation
import Apicast.PolicyChain
import Apicast.RateLimit.ConnectionSlots
import Apicast.RateLimit.ErrorSettings
import Apicast.RateLimit.KeyIsolation
import Apicast.RateLimit.WindowConcurrency
import Apicast.RateLimitHeaders
import Apicast.TokenIntrospection.FailsClosed
import Apicast.TokenIntrospection.AccessPhase
import Apicast.UsageFormat
import Apicast.Batcher.CachedAuthKey
import Apicast.Batcher.AuthsCache
import Apicast.Backend.Authorize
import Apicast.Batcher.Access
import Apicast.Backend.CachedKey
import Apicast.Backend.TokenLifetime
import Apicast.Configuration.RemoteV2
import Apicast.Configuration.FindService
import Apicast.Foundation.TableLoop
import Apicast.JwtClaimCheck
import Apicast.UsageTable
import Apicast.Batcher.ReportKeys
import Apicast.HeadersPolicy
import Apicast.TimerTask
import Apicast.Foundation.LinkedList
import Apicast.PolicyPhases
import Apicast.TimerPool
import Apicast.ConditionalPolicy
import Apicast.AnswerLifetime
import Apicast.Balancer
import Apicast.Foundation.Regex
import Apicast.Foundation.RegexSyntax
import Apicast.MappingRulePatterns
import Apicast.Foundation.LuaValue
import Apicast.KeycloakRoleCheck
import Apicast.Foundation.FallibleLoop
import Apicast.RoleDecisions
import Apicast.PatternCoverage
import Apicast.RoleCheckClosed
import Apicast.NamedArgsMatcher
import Apicast.CaptureSubstitution
import Apicast.RateLimitCountdown
import Apicast.ChainContext
import Apicast.PolicyOrder
import Apicast.UpstreamPath
import Apicast.Foundation.LinkWalk
import Apicast.Resolver
import Apicast.ResolverCache
import Apicast.FreshAnswers
import Apicast.RoundRobin
import Apicast.Foundation.ChunkedCoding
import Apicast.Http.RequestReader
import Apicast.Foundation.LuaPattern
import Apicast.Http.Authorization
import Apicast.TokenIntrospection.TokenExpiry
import Apicast.Http.Headers
import Apicast.Http.ResponseWriter
import Apicast.ContextNodes
import Apicast.Http.CacheFreshness
import Apicast.Configuration.Journal
import Apicast.Configuration.Reload
import Apicast.PolicyModules
import Apicast.Backend.Reporting
import Apicast.Backend.ReportBody
import Apicast.RequestPipeline
import Apicast.Standalone
import Apicast.UrlRewriting
import Apicast.Http.OwnHeaders
import Apicast.Configuration.Credentials
import Apicast.MappingRuleUsage
