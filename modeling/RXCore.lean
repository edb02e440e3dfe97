import RXCore.Lib.Run
import RXCore.Lib.Arrivals
import RXCore.Lib.Encoding
import RXCore.Lib.Alphabets
import RXCore.Lib.Tls
import RXCore.Lib.Lowercase
import RXCore.Lib.Cas
import RXCore.Lib.Parties
import RXCore.Lib.Tables
import RXCore.Lib.Coalesce
import RXCore.Lib.Window
import RXCore.Std
import RXCore.Net
import RXCore.Net.Text
import RXCore.Crates
import RXCore.Config
import RXCore.Router
import RXCore.Router.Names
import RXCore.Auth
import RXCore.Auth.Cookie
import RXCore.Auth.Sessions
import RXCore.Auth.Login
import RXCore.Transport.Reality
import RXCore.Transport.SingleFlight
import RXCore.Transport.Copy
import RXCore.Transport.Resolver
import RXCore.State.Stats
import RXCore.State.Reservations
import RXCore.State.UserMaps
import RXCore.State.Engine
import RXCore.State.Persist
import RXCore.State.Limited
import RXCore.State.Durability
import RXCore.State.Accounts
import RXCore.State.Reload
import RXCore.Api
import RXCore.Api.ClientIp
import RXCore.Inbound
import RXCore.Inbound.Slots
import RXCore.Inbound.Reload
import RXCore.Inbound.Creation
import RXCore.Api.Signups
import RXCore.Outbound.Dial
import RXCore.Outbound.Udp
import RXCore.Outbound.Stream
import RXCore.Outbound.Relay
import RXCore.Outbound.Contacts
import RXCore.Transport.Accept
import RXCore.Api.Links
import RXCore.Inbound.Handshakes
import RXCore.Inbound.Tunnel
import RXCore.Inbound.Vless
import RXCore.Inbound.Socks5
import RXCore.Outbound.Frames
import RXCore.Outbound.Wire
import RXCore.Outbound.Families
import RXCore.Outbound.Receive
import RXCore.Outbound.Proxy
import RXCore.Outbound.Accounting
import RXCore.Dispatcher
import RXCore.Dispatcher.Containment
import RXCore.Dispatcher.Enforcement
import RXCore.Dispatcher.Revocation
import RXCore.Dispatcher.Ipv4
import RXCore.Dispatcher.Lookups
import RXCore.Dispatcher.Sniffer
import RXCore.Lib.Cursor
import RXCore.Transport.ClientHello
import RXCore.Lib.Form
import RXCore.Desktop.Link
import RXCore.Lib.Locks
import RXCore.Desktop.Commands
import RXCore.Lib.Channel
import RXCore.Transport.Mux.Codec
import RXCore.Transport.Mux
import RXCore.Transport.Mux.Registry
import RXCore.Transport.Mux.Identity
import RXCore.Transport.Mux.Pool
import RXCore.Transport.Mux.Delivery
import RXCore.Transport.Mux.Sending
import RXCore.Transport.Mux.Ending
import RXCore.Lib.Tally
import RXCore.Inbound.HandshakeSlots
import RXCore.Router.Addresses
import RXCore.Router.Expressions
import RXCore.Outbound.PacketAddr
import RXCore.Outbound.PacketBuffer
import RXCore.Inbound.Ingress
import RXCore.Outbound.Headers
import RXCore.Outbound.Fragments
import RXCore.Outbound.Metered
import RXCore.Outbound.Totals
import RXCore.Lib.Pacer
import RXCore.Outbound.Pacing
import RXCore.Transport.DnsCache
import RXCore.Lib.Dns
import RXCore.Transport.DnsWire
import RXCore.Auth.Retention
import RXCore.Api.SubLimiter
import RXCore.Api.VpnAccounts
import RXCore.Config.Keys
import RXCore.Config.Texts
import RXCore.Config.Profiles
import RXCore.Config.Migration
import RXCore.Config.Validation
import RXCore.Lib.OnesComplement
import RXCore.State.WarpHealth
import RXCore.State.TopUp
import RXCore.Desktop.Configs
import RXCore.Desktop.Packets
import RXCore.Desktop.Checksums
import RXCore.Transport.Addresses
import RXCore.Transport.Mux.Writer
import RXCore.Outbound.Uploads
import RXCore.Dispatcher.Peek
import RXCore.Lib.Framing
import RXCore.Rustls.Message
import RXCore.Rustls.RecordLayer
import RXCore.Rustls.VecBuf
import RXCore.Rustls.Deframer
import RXCore.Rustls.Joining
import RXCore.Rustls.Reads
import RXCore.Rustls.Common
import RXCore.Rustls.Nonces
import RXCore.Rustls.Conn
import RXCore.Rustls.Segments
import RXCore.Rustls.Traffic
import RXCore.Rustls.Stream
import RXCore.Rustls.Channel
import RXCore.Lib.Dialogue
import RXCore.Inbound.Negotiation
import RXCore.Inbound.Chain
import RXCore.Inbound.GlobalTunnel
