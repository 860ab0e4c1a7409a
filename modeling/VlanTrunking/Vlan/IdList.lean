import VlanTrunking.Text.Blank
import VlanTrunking.Vlan.Basic

/-! Lists of VLAN ids as text, such as 10,20-22. The parts of a list stand between commas, and each
part is one id or a run from a first id to a last one. A list means the set of ids that its parts
cover, whatever their order and overlap; it is written as ascending ids without runs. -/
namespace VlanTrunking

structure IdSpan where
  first : VlanId
  last : VlanId
  deriving DecidableEq, Repr

namespace IdSpan

def covers (span : IdSpan) (id : VlanId) : Bool := span.first ≤ id && id ≤ span.last

end IdSpan

namespace IdList

def readId (cs : List Char) : Option VlanId :=
  (Text.readUnsigned (Text.trimBlanks cs)).filter fun n => decide (VlanId.Assignable n)

/-- Reads one part of a list; the first dash separates the ends of a run. -/
def readSpan (cs : List Char) : Option IdSpan :=
  let part := Text.trimBlanks cs
  match part.dropWhile (· != '-') with
  | [] => (readId part).map fun id => ⟨id, id⟩
  | _ :: right => do
    let first ← readId (part.takeWhile (· != '-'))
    let last ← readId right
    if first ≤ last then some ⟨first, last⟩ else none

def covered (spans : List IdSpan) : List VlanId :=
  let bound := spans.foldl (fun n span => max n (span.last + 1)) 0
  (List.range bound).filter fun id => spans.any (·.covers id)

def read? (text : String) : Option (List VlanId) :=
  ((text.toList.splitOn ',').mapM readSpan).map covered

def write (ids : List VlanId) : String := ",".intercalate (ids.map Nat.repr)

end IdList

end VlanTrunking
