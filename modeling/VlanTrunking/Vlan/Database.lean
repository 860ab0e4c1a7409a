import Std.Data.ExtTreeMap
import Std.Data.ExtTreeMap.Lemmas
import VlanTrunking.Command.Error
import VlanTrunking.Vlan.Basic

/-! The VLANs of a switch, ordered by id. An edit that would take the table past its capacity is
refused as a whole before anything is entered. -/
namespace VlanTrunking

abbrev VlanDatabase := Std.ExtTreeMap VlanId Vlan

namespace VlanDatabase

/-- Room is counted entry by entry, so a listed id that is missing counts once for each mention. -/
def HasRoomFor (db : VlanDatabase) (ids : List VlanId) : Prop :=
  db.size + (ids.filter fun id => !db.contains id).length ≤ vlanCapacity

instance (db : VlanDatabase) (ids : List VlanId) : Decidable (db.HasRoomFor ids) :=
  inferInstanceAs (Decidable (_ ≤ _))

def modify (db : VlanDatabase) (id : VlanId) (f : Vlan → Vlan) : VlanDatabase :=
  db.insert id (f (db.getD id {}))

/-- Gives each listed VLAN the name if there is one; without a name only missing VLANs change. -/
def enter (db : VlanDatabase) (ids : List VlanId) (name : Option String) : VlanDatabase :=
  ids.foldl (fun db id => db.modify id fun v => { v with name := name <|> v.name }) db

def define (db : VlanDatabase) (ids : List VlanId) (name : Option String) :
    Except CommandError VlanDatabase :=
  if db.HasRoomFor ids then .ok (db.enter ids name) else .error .vlanLimitExceeded

def setKind (db : VlanDatabase) (id : VlanId) (kind : VlanKind) :
    Except CommandError VlanDatabase :=
  if db.HasRoomFor [id] then .ok (db.modify id fun v => { v with kind := kind })
  else .error .vlanLimitExceeded

/-- Removes the listed VLANs and names those that were there, in the order of the list. -/
def remove (db : VlanDatabase) : List VlanId → List VlanId × VlanDatabase
  | [] => ([], db)
  | id :: ids =>
    if db.contains id then
      let (removed, rest) := remove (db.erase id) ids
      (id :: removed, rest)
    else remove db ids

theorem remove_isEmpty (db : VlanDatabase) (ids : List VlanId) :
    (db.remove ids).1.isEmpty = true ↔ ∀ id ∈ ids, id ∉ db := by
  induction ids with
  | nil => simp [remove]
  | cons id ids ih =>
    by_cases h : id ∈ db
    · simp [remove, h]
    · simpa [remove, h] using ih

end VlanDatabase

end VlanTrunking
