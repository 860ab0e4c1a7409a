import VlanTrunking.Vlan.Database

/-! The state of one simulated switch. The revision counts the edits that were made for the present
domain; it starts over when the domain name changes and stays at its greatest value once there. -/
namespace VlanTrunking

structure Device where
  id : String
  mode : Mode := .server
  domain : String := ""
  password : Option String := none
  revision : Nat := 0
  pruning : Bool := false
  vlans : VlanDatabase := ∅
  deriving DecidableEq

def lastRevision : Nat := 4294967295

namespace Device

def factory (id : String) : Device := { id }

instance : Inhabited Device := ⟨factory ""⟩

def setMode (d : Device) (mode : Mode) : Device := { d with mode }

/-- Setting the name that the domain already has changes nothing. -/
def setDomain (d : Device) (domain : String) : Device :=
  if d.domain = domain then d else { d with domain, revision := 0 }

def setPassword (d : Device) (password : String) : Device := { d with password := some password }

def setPruning (d : Device) (pruning : Bool) : Device := { d with pruning }

def bumpRevision (d : Device) : Device := { d with revision := min (d.revision + 1) lastRevision }

def defineVlans (d : Device) (ids : List VlanId) (name : Option String) :
    Except CommandError Device := do
  return { d with vlans := ← d.vlans.define ids name }

def setVlanKind (d : Device) (id : VlanId) (kind : VlanKind) : Except CommandError Device := do
  return { d with vlans := ← d.vlans.setKind id kind }

def removeVlans (d : Device) (ids : List VlanId) : List VlanId × Device :=
  let (removed, vlans) := d.vlans.remove ids
  (removed, { d with vlans })

/-- Enters one VLAN in place of any with its id; capacity is not looked at. -/
def insertVlan (d : Device) (id : VlanId) (v : Vlan) : Device :=
  { d with vlans := d.vlans.insert id v }

/-- A server with a domain speaks for it. -/
def Advertises (d : Device) : Prop := d.mode = .server ∧ d.domain ≠ ""

instance (d : Device) : Decidable d.Advertises := inferInstanceAs (Decidable (_ ∧ _))

end Device

end VlanTrunking
