import VlanTrunking.Device.Basic

/-! What the server of each domain last advertised. There is no arbitration between the servers of a
domain: a record is replaced whole by the latest one, whatever its revision. -/
namespace VlanTrunking

structure DomainRecord where
  revision : Nat
  vlans : VlanDatabase
  deriving DecidableEq

structure Registry where
  records : Std.ExtTreeMap String DomainRecord := ∅
  deriving DecidableEq

namespace Registry

/-- The empty name is no domain and has no record. -/
def lookup (r : Registry) (domain : String) : Option DomainRecord :=
  if domain = "" then none else r.records[domain]?

def size (r : Registry) : Nat := r.records.size

/-- The registry after a device advertises its VLANs, if it may do so. -/
def publish (r : Registry) (d : Device) : Option Registry :=
  if d.Advertises then some ⟨r.records.insert d.domain ⟨d.revision, d.vlans⟩⟩ else none

/-- The device after it takes over the record of its domain, if it is a client and there is one. -/
def pull (r : Registry) (d : Device) : Option Device :=
  if d.mode = .client then
    (r.lookup d.domain).map fun record =>
      { d with revision := record.revision, vlans := record.vlans }
  else none

/-- Does what the mode of the device asks for on an occasion, as far as it can be done. -/
def synchronize (r : Registry) (d : Device) (trigger : Trigger) : Registry × Device :=
  match d.mode.action trigger with
  | .publish => ((r.publish d).getD r, d)
  | .pull => (r, (r.pull d).getD d)
  | .none => (r, d)

end Registry

end VlanTrunking
