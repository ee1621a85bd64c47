import Parley.Wire.Frame
import Parley.Server.IpAddress

/-! What a server is set up with. -/

namespace Parley.Server

structure Config where
  host : String := "127.0.0.1"
  port : UInt16 := 8080
  /-- Milliseconds. -/
  selectTimeout : Nat := 100
  maxClients : Nat := 64
  maxFrame : Nat := Wire.defaultMaxFrame
  deriving DecidableEq, Repr

namespace Config

/-- The address to listen at, for a host that is given by an address and not by a name. -/
def address? (config : Config) : Option String :=
  (IpAddress.read? config.host).map (·.withPort config.port)

end Config

end Parley.Server
