import Vole.Datagram.SingMux
import Vole.Datagram.Trojan
import Vole.Datagram.Uot

/-!
# Datagrams over streams

UoT, Trojan and sing-mux each carry datagrams faithfully (`carriers_faithful`). What
the three have in common is said once, in `Association.Faithful`; what is left for
each of them is its format and what it does to a destination.
-/

namespace Vole.UdpStream

end Vole.UdpStream
