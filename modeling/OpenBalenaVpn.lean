import OpenBalenaVpn.Foundation.Transition
import OpenBalenaVpn.Foundation.OrderedMap
import OpenBalenaVpn.RefCount
import OpenBalenaVpn.RefCount.Theorems
import OpenBalenaVpn.Reporter
import OpenBalenaVpn.Reporter.Lemmas
import OpenBalenaVpn.Reporter.Scheduling
import OpenBalenaVpn.Reporter.Agreement
import OpenBalenaVpn.Service
import OpenBalenaVpn.Service.Theorems
import OpenBalenaVpn.Reporter.Reclaim
import OpenBalenaVpn.Reporter.Convergence
import OpenBalenaVpn.Worker
import OpenBalenaVpn.Worker.Drain
import OpenBalenaVpn.Cluster
import OpenBalenaVpn.Worker.Lemmas
import OpenBalenaVpn.Cluster.Shutdown
import OpenBalenaVpn.Sessions
import OpenBalenaVpn.Sessions.Theorems
import OpenBalenaVpn.Foundation.Number
import OpenBalenaVpn.Foundation.Base64
import OpenBalenaVpn.Foundation.Http
import OpenBalenaVpn.Proxy
import OpenBalenaVpn.Proxy.Lemmas
import OpenBalenaVpn.Proxy.Chain
import OpenBalenaVpn.Foundation.Json
import OpenBalenaVpn.Foundation.Json.Lemmas
import OpenBalenaVpn.Auth
import OpenBalenaVpn.Auth.Lemmas
import OpenBalenaVpn.Auth.Theorems
import OpenBalenaVpn.Foundation.Emitter
import OpenBalenaVpn.Foundation.JsString
import OpenBalenaVpn.VpnManager
import OpenBalenaVpn.VpnManager.Parser
import OpenBalenaVpn.VpnManager.Env
import OpenBalenaVpn.VpnManager.Process
import OpenBalenaVpn.VpnManager.Orphan
import OpenBalenaVpn.VpnManager.Startup
import OpenBalenaVpn.Netmask
import OpenBalenaVpn.Netmask.Split
import OpenBalenaVpn.VpnManager.Network
import OpenBalenaVpn.Foundation.Utf8
import OpenBalenaVpn.Foundation.Memo
import OpenBalenaVpn.Access
import OpenBalenaVpn.Access.Isolation
import OpenBalenaVpn.Proxy.Forward
import OpenBalenaVpn.Proxy.StatusLine
import OpenBalenaVpn.Proxy.Handover
import OpenBalenaVpn.Foundation.Program
import OpenBalenaVpn.Throttle
import OpenBalenaVpn.Throttle.Lemmas
import OpenBalenaVpn.Throttle.Numbering
import OpenBalenaVpn.Throttle.Minor
import OpenBalenaVpn.Throttle.Isolation
import OpenBalenaVpn.Throttle.Race
import OpenBalenaVpn.Netmask.Partition
import OpenBalenaVpn.Worker.Clients
import OpenBalenaVpn.Reporter.Exactness
import OpenBalenaVpn.Foundation.Utf8.Encode
import OpenBalenaVpn.Foundation.JsString.Lines
import OpenBalenaVpn.VpnManager.Lines
import OpenBalenaVpn.Foundation.Program.Runs
import OpenBalenaVpn.Proxy.Tunnel
import OpenBalenaVpn.Proxy.Tunnel.Lookups
import OpenBalenaVpn.Proxy.Tunnel.Verdict
import OpenBalenaVpn.Foundation.Number.Range
import OpenBalenaVpn.Proxy.Tunnel.Target
import OpenBalenaVpn.Proxy.Credential
import OpenBalenaVpn.Proxy.Socket
import OpenBalenaVpn.Auth.Cache
import OpenBalenaVpn.Foundation.Uri
import OpenBalenaVpn.Auth.Verdicts
import OpenBalenaVpn.Worker.Kills
import OpenBalenaVpn.Worker.Budget
import OpenBalenaVpn.Foundation.Meter
import OpenBalenaVpn.Worker.Traffic
import OpenBalenaVpn.Worker.Bitrate
import OpenBalenaVpn.ClusterMetrics
import OpenBalenaVpn.ClusterMetrics.Scrapes
import OpenBalenaVpn.ClusterMetrics.Failures
import OpenBalenaVpn.ClusterMetrics.Fetches
import OpenBalenaVpn.Cluster.Verbosity
import OpenBalenaVpn.Foundation.Json.Splice
import OpenBalenaVpn.ClientScript
import OpenBalenaVpn.Foundation.Json.Digits
import OpenBalenaVpn.ClientScript.Encoding
import OpenBalenaVpn.Foundation.Bracketed
import OpenBalenaVpn.Foundation.Number.Integer
import OpenBalenaVpn.Proxy.Forwarded
import OpenBalenaVpn.Foundation.Template
import OpenBalenaVpn.Foundation.Shell
import OpenBalenaVpn.Instances
import OpenBalenaVpn.Instances.Lemmas
import OpenBalenaVpn.Instances.Agreement
import OpenBalenaVpn.Reporter.Quiescence
import OpenBalenaVpn.Deployment
import OpenBalenaVpn.Deployment.Convergence
import OpenBalenaVpn.Access.Requests
import OpenBalenaVpn.Auth.Requests
import OpenBalenaVpn.Worker.Underway
import OpenBalenaVpn.Cluster.Completion
import OpenBalenaVpn.Worker.Turns
import OpenBalenaVpn.Cluster.Turns
import OpenBalenaVpn.Registration
import OpenBalenaVpn.Registration.Theorems
import OpenBalenaVpn.Wire.Refinement
import OpenBalenaVpn.HAProxy.Plain
import OpenBalenaVpn.Routing.Theorems
import OpenBalenaVpn.Management
import OpenBalenaVpn.Management.Notices
import OpenBalenaVpn.Management.Theorems
