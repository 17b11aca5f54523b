import SmartDns.Lib.ForkJoin
import SmartDns.Lib.Keyed
import SmartDns.Lib.EventStream
import SmartDns.Lib.Exec
import SmartDns.Lib.JsonWriter
import SmartDns.Lib.Transition
import SmartDns.Lib.DepthFirst
import SmartDns.Dns.Error
import SmartDns.Dns.Message
import SmartDns.Dns.Answer
import SmartDns.Dns.Cache
import SmartDns.Pipeline.Context
import SmartDns.Dispatcher.Strategy
import SmartDns.Dispatcher.Registry
import SmartDns.Dispatcher.Nested
import SmartDns.Pipeline.WriteBack
import SmartDns.Rules.Engine
import SmartDns.Config.Models
import SmartDns.Config.Validation
import SmartDns.QueryLog.Store
import SmartDns.Plugin.Registry
import SmartDns.Plugin.Manager
import SmartDns.Pipeline.Engine
import SmartDns.Pipeline.Finalize
import SmartDns.Pipeline.Trace
import SmartDns.Pipeline.Outcome
import SmartDns.Pipeline.OutcomeLaw
import SmartDns.Multiprocess.FrontCache
import SmartDns.Cache.Service
import SmartDns.Cache.Plugin
import SmartDns.Cache.Sharing
import SmartDns.Cache.Ownership
import SmartDns.Cache.SingleFlight
import SmartDns.Cache.Lifetime
import SmartDns.Cache.Admission
import SmartDns.Core.IpRadix
import SmartDns.IpFilter.Plugin
import SmartDns.IpFilter.Bypass
import SmartDns.Runtime.Manager
import SmartDns.Resolver.Nameserver
import SmartDns.Resolver.Upstream
import SmartDns.Multiprocess.NestedResolve
import SmartDns.Multiprocess.Manager
import SmartDns.Cache.Followers
import SmartDns.Cache.Following
import SmartDns.Cache.Transparency
import SmartDns.Multiprocess.Ownership
import SmartDns.Multiprocess.SingleFlight
import SmartDns.Multiprocess.Configuration
import SmartDns.Multiprocess.Freshness
import SmartDns.Multiprocess.Reload
import SmartDns.Multiprocess.Pool
import SmartDns.Multiprocess.Machinery
import SmartDns.Multiprocess.Cleanup
import SmartDns.Multiprocess.Supervision
import SmartDns.Multiprocess.Shutdown
import SmartDns.Multiprocess.Replies
import SmartDns.Core.PyText
import SmartDns.Rules.Selection
import SmartDns.Pipeline.Restoring
import SmartDns.Runtime.Sessions
import SmartDns.Runtime.Services
import SmartDns.Core.DomainTrie
import SmartDns.Plugin.Hooks
import SmartDns.QueryLog.Subscription
import SmartDns.Multiprocess.NestedDepth
import SmartDns.Resolver.DnscryptExchange
import SmartDns.Https.Sanitize
import SmartDns.IpReplace.Stages
import SmartDns.SpeedTest.Timing
import SmartDns.Https.Ech
import SmartDns.Https.EchPlacement
import SmartDns.Server.Doh
import SmartDns.Config.Loader
import SmartDns.Resolver.TrickTcp
import SmartDns.Server.DohRoutes
import SmartDns.Server.Udp
import SmartDns.Config.EditorSchema
import SmartDns.SpeedTest.Measure
import SmartDns.Plugin.Redirect
import SmartDns.Plugin.Block
import SmartDns.Multiprocess.QueryLogPipe
import SmartDns.QueryLog.Page
