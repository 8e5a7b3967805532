import X2rp.Admin.Access
import X2rp.Admin.Api
import X2rp.Admin.Auth
import X2rp.Admin.Commit
import X2rp.Admin.Cookies
import X2rp.Admin.Credentials
import X2rp.Admin.Disk
import X2rp.Admin.Durable
import X2rp.Admin.Lifetime
import X2rp.Admin.Names
import X2rp.Admin.Records
import X2rp.Admin.Registry
import X2rp.Admin.Revocation
import X2rp.Admin.RouteTable
import X2rp.Admin.Server
import X2rp.Admin.Sessions
import X2rp.Admin.Setup
import X2rp.Admin.State
import X2rp.Admin.Stored
import X2rp.Admin.Target
import X2rp.Admin.Updates
import X2rp.Browser
import X2rp.Budget
import X2rp.Chunks
import X2rp.Connector.Backend
import X2rp.Connector.Dial
import X2rp.Connector.Enrolment
import X2rp.Connector.Reconnect
import X2rp.Connector.Standing
import X2rp.Exchange
import X2rp.Expiry
import X2rp.Files
import X2rp.Hex
import X2rp.Http
import X2rp.Jar
import X2rp.Lts
import X2rp.Permits
import X2rp.Proto.Codec
import X2rp.Proto.Credit
import X2rp.Proto.Decrypt
import X2rp.Proto.Frame
import X2rp.Proto.Message
import X2rp.Proto.Obfs
import X2rp.Proto.Reader
import X2rp.Proto.Recv
import X2rp.Proto.SendCredit
import X2rp.Proto.Ssrf
import X2rp.Proxy.Budgets
import X2rp.Proxy.Clients
import X2rp.Proxy.Editing
import X2rp.Proxy.Gateway
import X2rp.Proxy.RateLimit
import X2rp.Proxy.Redirect
import X2rp.Proxy.Texts
import X2rp.Proxy.Upstream
import X2rp.Quic.Integrity
import X2rp.Quic.Session
import X2rp.Quic.Teardown
import X2rp.Quic.Tunnel
import X2rp.Relay
import X2rp.Roster
import X2rp.Tls.Certs
import X2rp.Tls.Renewal
import X2rp.View
import X2rp.Wss.Agreement
import X2rp.Wss.Backlog
import X2rp.Wss.Bytes
import X2rp.Wss.Caps
import X2rp.Wss.ConnectorEnd
import X2rp.Wss.ConnectorManager
import X2rp.Wss.Conservation
import X2rp.Wss.Ending
import X2rp.Wss.Ends
import X2rp.Wss.Handler
import X2rp.Wss.Integrity
import X2rp.Wss.Lifecycle
import X2rp.Wss.Mux
import X2rp.Wss.Projection
import X2rp.Wss.Pump
import X2rp.Wss.Removal
import X2rp.Wss.ServerEnd
import X2rp.Wss.Session
import X2rp.Wss.SessionManager
import X2rp.Wss.Shutdown
import X2rp.Wss.Slots
import X2rp.Wss.Stream
import X2rp.Wss.StreamIds
import X2rp.Wss.Streams
import X2rp.Wss.Tunnel
import X2rp.Wss.Window
import X2rp.Wss.WriteLoop
