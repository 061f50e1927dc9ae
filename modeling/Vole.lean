import Vole.AnyTls.Waiters
import Vole.Config.Text
import Vole.Datagram.Carriers
import Vole.Datagram.Xudp
import Vole.Dialer.Stranded
import Vole.Dns.Answers
import Vole.Dns.Singleflight
import Vole.Geodata.Cidr
import Vole.Geodata.Utf8
import Vole.Hysteria2.Loss
import Vole.Hysteria2.Pacing
import Vole.Netstack.Close
import Vole.Outbound.Establish
import Vole.Quic.PacketNumber
import Vole.Quic.Wakeups
import Vole.Routing.Flows
import Vole.Shadowsocks.Stream
import Vole.Socks5.Association
import Vole.Tun.Delivery
import Vole.Vless.Masking
import Vole.Vmess.RoundTrip
import Vole.Windows.CommandLine
import Vole.Windows.LocalRoutes
