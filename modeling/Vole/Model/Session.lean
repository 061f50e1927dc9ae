import Vole.Routing.Model.Rules

/-!
# Sessions

The endpoints and sessions the inbounds hand to the dispatchers. An IPv6
socket address has no scope or flow label here: every address of the
modelled code is built from an IP address and a port.
-/

namespace Vole

/-- `std::net::SocketAddr`. -/
structure SocketAddr where
  ip : IpAddr
  port : UInt16
  deriving DecidableEq, Repr

/-- `session::Destination`. -/
inductive Destination where
  | ip (address : SocketAddr)
  | domain (host : Bytes) (port : UInt16)
  deriving DecidableEq, Repr

namespace Destination

/-- `Destination::port`. -/
def port : Destination → UInt16
  | ip address => address.port
  | domain _ port => port

/-- The test `matches!(destination, Destination::Ip(_))`. -/
def isIp : Destination → Bool
  | ip _ => true
  | domain _ _ => false

/-- The test `matches!(destination, Destination::Ip(a) if a.is_ipv6())`. -/
def isIpv6 : Destination → Bool
  | ip address => address.ip.isIpv6
  | domain _ _ => false

end Destination

/-- `session::InboundKind`. -/
inductive InboundKind where
  | tun
  | http
  | socks5
  | internalDns
  | internalGeoData
  | internalMeasure
  deriving DecidableEq, Repr

/-- `session::StreamSession`. -/
structure StreamSession where
  inbound : InboundKind
  source : SocketAddr
  destination : Destination
  sniffedDomain : Option Bytes
  deriving DecidableEq, Repr

/-- `session::DatagramSession`, without its response size limit, which
the outbounds alone read. -/
structure DatagramSession where
  inbound : InboundKind
  source : SocketAddr
  deriving DecidableEq, Repr

/-- `session::Datagram`. -/
structure Datagram where
  remote : Destination
  payload : Bytes
  sniffedDomain : Option Bytes
  deriving DecidableEq, Repr

/-- `Destination::domain`, where it is valid. -/
def Destination.ofDomain (host : Bytes) (port : UInt16) : Option Destination :=
  if host.isEmpty || 255 < host.length || port == 0 || host.any Bytes.isControl then none
  else some (.domain host port)

end Vole
