import TSymbiote.Lib.Transition
import TSymbiote.Lib.FanOut
import TSymbiote.Lib.FanOut.Schedule
import TSymbiote.Lib.Pool
import TSymbiote.Lib.Channel
import TSymbiote.Lib.Maps
import TSymbiote.Lib.Json
import TSymbiote.Lib.Strings
import TSymbiote.Lib.Csv
import TSymbiote.Lib.Base64
import TSymbiote.Lib.Percent
import TSymbiote.Lib.Utf8
import TSymbiote.Lib.Url
import TSymbiote.Lib.Path
import TSymbiote.Lib.Regex.Preferred
import TSymbiote.Lib.Replace
import TSymbiote.Lib.Handlers
import TSymbiote.Lib.Int64
import TSymbiote.Lib.Cycle
import TSymbiote.Lib.Attempt
import TSymbiote.Shared.Paths
import TSymbiote.Shared.StructToMap
import TSymbiote.Shared.StructToMap.Lossless
import TSymbiote.Shared.StructToMap.Reflect
import TSymbiote.Shared.Response
import TSymbiote.Shared.Websocket
import TSymbiote.Shared.Shutdown
import TSymbiote.Shared.Middleware
import TSymbiote.Utils.SocketDiscovery
import TSymbiote.Adapter.Status
import TSymbiote.Adapter.Simple
import TSymbiote.Adapter.Ping
import TSymbiote.Adapter.LocalAPI
import TSymbiote.Adapter.QueryDNS
import TSymbiote.Adapter.KnownPeers
import TSymbiote.Adapter.KnownPeers.Concurrent
import TSymbiote.Adapter.Stream
import TSymbiote.Adapter.Stream.Producer
import TSymbiote.Adapter.Stream.Order
import TSymbiote.Adapter.Logs
import TSymbiote.Operator.Pod
import TSymbiote.Operator.Webhook
import TSymbiote.Operator.SecretName
import TSymbiote.Operator.Secrets
import TSymbiote.Operator.Cache
import TSymbiote.Operator.Status
import TSymbiote.Operator.AllowedUsers
import TSymbiote.Operator.StatefulSet
import TSymbiote.WebUI.Auth
import TSymbiote.WebUI.Client
import TSymbiote.WebUI.CallHost
import TSymbiote.WebUI.Passthrough
import TSymbiote.WebUI.HostQueries
import TSymbiote.WebUI.Pprof
import TSymbiote.WebUI.RemoteDebug
import TSymbiote.WebUI.Ping
import TSymbiote.WebUI.Replies
import TSymbiote.WebUI.Pprof.WriteFailures
import TSymbiote.WebUI.Pprof.Files
import TSymbiote.WebUI.Deadlines
import TSymbiote.WebUI.Failures
import TSymbiote.WebUI.PeerMap
import TSymbiote.WebUI.PeerMap.Hosts
import TSymbiote.WebUI.PeerMap.Graph
import TSymbiote.WebUI.PeerMap.Merge
import TSymbiote.WebUI.PeerMap.Distinct
import TSymbiote.WebUI.PeerMap.Abandoned
import TSymbiote.WebUI.Client.Concurrent
import TSymbiote.WebUI.Routing
import TSymbiote.WebUI.Relay
import TSymbiote.WebUI.Relay.Setup
import TSymbiote.WebUI.Relay.Load
import TSymbiote.WebUI.Relay.Notice
import TSymbiote.WebUI.Relay.Drain
import TSymbiote.WebUI.Relay.Order
import TSymbiote.WebUI.Relay.CloseDown
import TSymbiote.WebUI.Relay.Ledger
import TSymbiote.Routes
import TSymbiote.Frontend.Objects
import TSymbiote.Frontend.WebSocketStream
import TSymbiote.Frontend.WebSocketStream.Sockets
import TSymbiote.Frontend.WebSocketStream.Pane
import TSymbiote.Frontend.StreamText
import TSymbiote.Frontend.CommandOutputs
import TSymbiote.Frontend.HostResults
import TSymbiote.Frontend.DNSResults
import TSymbiote.Frontend.Ping
import TSymbiote.Frontend.PingReply
import TSymbiote.Frontend.PingLoop
import TSymbiote.Frontend.EdgeColors
import TSymbiote.Frontend.PingOutputs
import TSymbiote.Frontend.Selection
import TSymbiote.Frontend.Selection.Subset
import TSymbiote.Frontend.Selection.HideOffline
import TSymbiote.Frontend.StreamUrl
import TSymbiote.Frontend.Highlight
import TSymbiote.Frontend.Goroutines
import TSymbiote.Frontend.Shortcuts
import TSymbiote.Operator.Roles
import TSymbiote.Pipeline
import TSymbiote.Tailnet
import TSymbiote.Queries
import TSymbiote.DNSQueries
import TSymbiote.Pings
