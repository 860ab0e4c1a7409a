import VlanTrunking.Address.Ipv4
import VlanTrunking.Text.Hexadecimal

/-! Addresses of eight sixteen-bit groups. Groups are hexadecimal and stand between colons; a double
colon, used once at most, leaves out a run of zero groups, and the last two groups may be given as a
dotted address. In the canonical text the first longest run of at least two zero groups is left out,
and only addresses that map a dotted one end in it. -/
namespace VlanTrunking

abbrev Hextet := Fin 65536

structure Ipv6 where
  groups : List Hextet
  length_groups : groups.length = 8
  deriving DecidableEq

namespace Ipv6

def readGroup (cs : List Char) : Option Hextet := do
  let n ← Text.readHexDigits cs
  if h : n < 65536 then
    if cs.isEmpty ∨ 4 < cs.length then none else some ⟨n, h⟩
  else none

def joinOctets (high low : Octet) : Hextet := ⟨256 * high.val + low.val, by omega⟩

def ofIpv4 (ip : Ipv4) : List Hextet := [joinOctets ip.first ip.second, joinOctets ip.third ip.fourth]

def readLast (cs : List Char) : Option (List Hextet) :=
  match readGroup cs with
  | some g => some [g]
  | none => (Ipv4.read? cs).map ofIpv4

def readPieces : List (List Char) → Option (List Hextet)
  | [] => some []
  | [piece] => readLast piece
  | piece :: rest => do return (← readGroup piece) :: (← readPieces rest)

def readTail (cs : List Char) : Option (List Hextet) :=
  if cs.isEmpty then some [] else readPieces (cs.splitOn ':')

def readHead (cs : List Char) : Option (List Hextet) :=
  if cs.isEmpty then some [] else (cs.splitOn ':').mapM readGroup

def cutAtDoubleColon : List Char → Option (List Char × List Char)
  | ':' :: ':' :: rest => some ([], rest)
  | c :: rest => (cutAtDoubleColon rest).map fun (left, right) => (c :: left, right)
  | [] => none

def ofGroups? (groups : List Hextet) : Option Ipv6 :=
  if h : groups.length = 8 then some ⟨groups, h⟩ else none

/-- A double colon stands for at least one group. -/
def read? (cs : List Char) : Option Ipv6 := do
  match cutAtDoubleColon cs with
  | none => ofGroups? (← readTail cs)
  | some (left, right) =>
    let head ← readHead left
    let tail ← readTail right
    if head.length + tail.length ≤ 7 then
      ofGroups? (head ++ List.replicate (8 - (head.length + tail.length)) 0 ++ tail)
    else none

def zeroRun (groups : List Hextet) : Nat := (groups.takeWhile (· == 0)).length

/-- The place and the length of the first longest run of zero groups. -/
def longestRun : List Hextet → Nat × Nat
  | [] => (0, 0)
  | g :: rest =>
    let here := zeroRun (g :: rest)
    let (place, length) := longestRun rest
    if length ≤ here then (0, here) else (place + 1, length)

def writeGroups (groups : List Hextet) : List Char :=
  [':'].intercalate (groups.map fun g => Nat.toDigits 16 g.val)

def mapped? (ip : Ipv6) : Option Ipv4 :=
  match ip.groups with
  | [0, 0, 0, 0, 0, 0xFFFF, g, h] =>
    some ⟨⟨g.val / 256, by omega⟩, ⟨g.val % 256, by omega⟩, ⟨h.val / 256, by omega⟩,
      ⟨h.val % 256, by omega⟩⟩
  | _ => none

def write (ip : Ipv6) : List Char :=
  match ip.mapped? with
  | some dotted => "::ffff:".toList ++ dotted.write
  | none =>
    let (place, length) := longestRun ip.groups
    if length < 2 then writeGroups ip.groups
    else writeGroups (ip.groups.take place) ++ [':', ':'] ++
      writeGroups (ip.groups.drop (place + length))

end Ipv6

end VlanTrunking
