import H3llo.Basis.Runs
import H3llo.Basis.Traces
import H3llo.Basis.HashMap
import H3llo.Basis.Channel
import H3llo.Basis.Mpsc
import H3llo.Basis.Ranking
import H3llo.Basis.Descent
import H3llo.Basis.Linear
import H3llo.Basis.Datagrams
import H3llo.Net.Address
import H3llo.Net.AddressText
import H3llo.Net.PrefixTrie
import H3llo.Net.Subnets
import H3llo.Net.OnesComplement
import H3llo.Net.Varint
import H3llo.Net.Utf8
import H3llo.Net.UrlText
import H3llo.Metrics
import H3llo.Retry
import H3llo.Config.Peers
import H3llo.Config.Endpoint
import H3llo.Config.EndpointText
import H3llo.Config.PeerText
import H3llo.Config.Validate
import H3llo.Actor.Bus
import H3llo.Actor.Links
import H3llo.Actor.Exits
import H3llo.Router.Packet
import H3llo.Router.Table
import H3llo.Router.Ingress
import H3llo.Router.Accounting
import H3llo.Router.LocalDelivery
import H3llo.Router.Actor
import H3llo.Router.Network
import H3llo.Ledger
import H3llo.Udp.Receive
import H3llo.Udp.Send
import H3llo.Udp.Drain
import H3llo.Udp.Link
import H3llo.Bare.Filter
import H3llo.Bare.Tunnel
import H3llo.Bind.Egress
import H3llo.Dns.Actor
import H3llo.Dns.Queries
import H3llo.Dns.Exchange
import H3llo.Dns.Snapshots
import H3llo.Dns.Lifetimes
import H3llo.Dns.Resolver
import H3llo.Dns.Traffic
import H3llo.Orch.Peer
import H3llo.Orch.Orchestrator
import H3llo.Orch.DialTracking
import H3llo.Orch.System
import H3llo.Orch.Routing
import H3llo.Orch.SingleFlight
import H3llo.Orch.DialTarget
import H3llo.Orch.Literals
import H3llo.Orch.Transactions
import H3llo.Orch.Convergence
import H3llo.Orch.PeerView
import H3llo.Orch.Pursuit
import H3llo.Orch.Backoff
import H3llo.Orch.Paths
import H3llo.Orch.Supervision
import H3llo.Orch.Scrape
import H3llo.Api.Management
import H3llo.Api.Http
import H3llo.Api.Export
import H3llo.Route.Sync
import H3llo.Route.Networks
import H3llo.Route.Actor
import H3llo.H3.Codec
import H3llo.H3.Request
import H3llo.H3.Session
import H3llo.H3.Engine
import H3llo.H3.Dispatcher
import H3llo.H3.Forwarding
import H3llo.H3.Handshake
import H3llo.H3.Reload
import H3llo.H3.Passage
import H3llo.Tun.Buffer
import H3llo.Tun.Actors
