import VlanTrunking.Address.Ipv6

/-! IP addresses of both families, and the addresses that a server binds. -/
namespace VlanTrunking

inductive IpAddress where
  | v4 (ip : Ipv4)
  | v6 (ip : Ipv6)
  deriving DecidableEq

namespace IpAddress

def read? (text : String) : Option IpAddress :=
  match Ipv4.read? text.toList with
  | some ip => some (v4 ip)
  | none => (Ipv6.read? text.toList).map v6

def write : IpAddress → String
  | v4 ip => String.ofList ip.write
  | v6 ip => String.ofList ip.write

end IpAddress

abbrev Port := Fin 65536

def Port.ofInt? (n : Int) : Option Port :=
  if h : 0 ≤ n ∧ n < 65536 then some ⟨n.toNat, by omega⟩ else none

structure SocketAddress where
  ip : IpAddress
  port : Port
  deriving DecidableEq

/-- Brackets keep the colons of an address apart from the one before the port. -/
def SocketAddress.write (a : SocketAddress) : String :=
  match a.ip with
  | .v4 _ => a.ip.write ++ ":" ++ a.port.val.repr
  | .v6 _ => "[" ++ a.ip.write ++ "]:" ++ a.port.val.repr

end VlanTrunking
