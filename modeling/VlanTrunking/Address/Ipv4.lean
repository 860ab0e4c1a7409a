import VlanTrunking.Text.Decimal

/-! Addresses of four octets in dotted decimal form. An octet has no needless zeros, so each address
has one text. -/
namespace VlanTrunking

abbrev Octet := Fin 256

structure Ipv4 where
  first : Octet
  second : Octet
  third : Octet
  fourth : Octet
  deriving DecidableEq, Repr

namespace Ipv4

def readOctet (cs : List Char) : Option Octet := do
  let n ← Text.readNat cs
  if h : n < 256 then
    if cs.head? = some '0' ∧ cs.length ≠ 1 then none else some ⟨n, h⟩
  else none

def read? (cs : List Char) : Option Ipv4 := do
  match ← (cs.splitOn '.').mapM readOctet with
  | [a, b, c, d] => some ⟨a, b, c, d⟩
  | _ => none

def octets (ip : Ipv4) : List Octet := [ip.first, ip.second, ip.third, ip.fourth]

def write (ip : Ipv4) : List Char :=
  ['.'].intercalate (ip.octets.map fun octet => Nat.toDigits 10 octet.val)

end Ipv4

end VlanTrunking
