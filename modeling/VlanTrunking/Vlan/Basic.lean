import VlanTrunking.Text.Decimal

/-! VLAN ids and the attributes that a VLAN carries. Ids are plain numbers: the command language
only lets assignable ones through, while the tables themselves accept any. -/
namespace VlanTrunking

abbrev VlanId := Nat

namespace VlanId

def lowest : VlanId := 1

def highest : VlanId := 4094

def Assignable (id : VlanId) : Prop := lowest ≤ id ∧ id ≤ highest

instance (id : VlanId) : Decidable (Assignable id) := inferInstanceAs (Decidable (_ ∧ _))

end VlanId

inductive VlanKind where
  | normal
  | primary
  | community
  | isolated
  deriving DecidableEq, Repr, Inhabited

namespace VlanKind

def name : VlanKind → String
  | normal => "normal"
  | primary => "primary"
  | community => "community"
  | isolated => "isolated"

def privateRoles : List VlanKind := [primary, community, isolated]

end VlanKind

structure Vlan where
  name : Option String := none
  kind : VlanKind := .normal
  deriving DecidableEq, Repr, Inhabited

/-- The configured name, or one made from the id in at least four digits. -/
def Vlan.displayName (v : Vlan) (id : VlanId) : String :=
  v.name.getD ("VLAN" ++ Text.zeroPadded 4 id)

end VlanTrunking
