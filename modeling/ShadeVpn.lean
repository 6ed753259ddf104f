import ShadeVpn.Lib.Octets
import ShadeVpn.Lib.Checked
import ShadeVpn.Lib.Cursor
import ShadeVpn.Lib.Crypto
import ShadeVpn.Lib.Symbolic
import ShadeVpn.Lib.Attacker
import ShadeVpn.Lib.Transducer
import ShadeVpn.Lib.Machine
import ShadeVpn.Lib.Cell
import ShadeVpn.Lib.Query
import ShadeVpn.Lib.Fallible
import ShadeVpn.Lib.Json
import ShadeVpn.Lib.Layout
import ShadeVpn.Lib.Asn1
import ShadeVpn.Lib.BaseText
import ShadeVpn.Lib.Relay
import ShadeVpn.Vless.Varint
import ShadeVpn.Vless.Header
import ShadeVpn.Vless.HeaderAgreement
import ShadeVpn.Vless.Vision
import ShadeVpn.Vless.VisionStream
import ShadeVpn.Vless.WriterShape
import ShadeVpn.Vless.Grammar
import ShadeVpn.Vless.Stream
import ShadeVpn.Vless.Records
import ShadeVpn.Vless.FailClosed
import ShadeVpn.Tls.ClientHello
import ShadeVpn.Tls.HelloLength
import ShadeVpn.Tls.RoundTrip
import ShadeVpn.Tls.Exact
import ShadeVpn.Tls13.Certificate
import ShadeVpn.Tls13.CertificateSafety
import ShadeVpn.Tls13.Schedule
import ShadeVpn.Tls13.HkdfExpand
import ShadeVpn.Tls13.Rfc8446
import ShadeVpn.Tls13.Client
import ShadeVpn.Tls13.ServerHello
import ShadeVpn.Tls13.ServerFlight
import ShadeVpn.Tls13.CertificateEncoding
import ShadeVpn.Tls13.NoAbort
import ShadeVpn.Tls13.Reassembly
import ShadeVpn.Tls13.AppKeys
import ShadeVpn.Tls13.RecordLayer
import ShadeVpn.Tls13.HonestServer
import ShadeVpn.Tls13.HonestHandshake
import ShadeVpn.Reality.Material
import ShadeVpn.Reality.Handshake
import ShadeVpn.Reality.NonceInputs
import ShadeVpn.Reality.Server
import ShadeVpn.Reality.HonestRun
import ShadeVpn.Reality.Agreement
import ShadeVpn.Reality.Secrecy
import ShadeVpn.Reality.Origin
import ShadeVpn.Reality.Completion
import ShadeVpn.Pump.Transport
import ShadeVpn.Pump.FrameStream
import ShadeVpn.Pump.Outbound
import ShadeVpn.Pump.Inbound
import ShadeVpn.Pump.Idle
import ShadeVpn.Pump.MirrorServer
import ShadeVpn.Pump.Tunnel
import ShadeVpn.Pump.WrongIdentity
import ShadeVpn.Pump.RecordOrigin
import ShadeVpn.Native.Session
import ShadeVpn.Native.Steps
import ShadeVpn.Native.Threads
import ShadeVpn.Native.Alone
import ShadeVpn.Native.OneCaller
import ShadeVpn.Native.Authenticated
import ShadeVpn.Native.OneConnect
import ShadeVpn.Native.Halves
import ShadeVpn.Native.PumpStart
import ShadeVpn.Native.Teardown
import ShadeVpn.Native.Ledger
import ShadeVpn.Native.NonceReuse
import ShadeVpn.Native.Counters
import ShadeVpn.Native.ProbedStream
import ShadeVpn.Native.LengthFields
import ShadeVpn.Service.Snapshot
import ShadeVpn.Service.Orchestrator
import ShadeVpn.Service.VpnService
import ShadeVpn.Service.StopWins
import ShadeVpn.Service.PumpTun
import ShadeVpn.Service.ThreadsEnd
import ShadeVpn.Profile.Parser
import ShadeVpn.Profile.Crossing
import ShadeVpn.Profile.Secrets
import ShadeVpn.Service.Stages
import ShadeVpn.Profile.Material
import ShadeVpn.Service.Coherence
import ShadeVpn.Service.Updates
import ShadeVpn.Service.Backoff
import ShadeVpn.Service.OneThread
import ShadeVpn.Service.SerialService
import ShadeVpn.Service.Connects
