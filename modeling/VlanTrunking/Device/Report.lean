import VlanTrunking.Device.Basic

/-! The reports that a switch shows about itself: its status block, whether it has a password, and
the table of its VLANs. A password is never shown. -/
namespace VlanTrunking.Device

def shownDomain (d : Device) : String := if d.domain = "" then "not configured" else d.domain

def statusLines (d : Device) : List String :=
  ["VTP Version: 2",
    "Configuration Revision: " ++ d.revision.repr,
    "Maximum VLANs supported locally: " ++ vlanCapacity.repr,
    "Number of existing VLANs: " ++ d.vlans.size.repr,
    "VTP Operating Mode: " ++ d.mode.name,
    "VTP Domain Name: " ++ d.shownDomain,
    "VTP Pruning Mode: " ++ (if d.pruning then "Enabled" else "Disabled")]

def statusText (d : Device) : String := "\n".intercalate d.statusLines

def passwordText (d : Device) : String :=
  if d.password.isSome then "VTP Password: <not displayed> (configured)"
  else "VTP Password: not configured"

/-- One line of the table. The first two columns are four and thirty-two characters wide, one space
apart; a longer entry pushes the rest to the right. -/
def tableRow (id name kind : String) : String :=
  Text.padRight 4 id ++ " " ++ Text.padRight 32 name ++ " " ++ kind

def dashes (n : Nat) : String := String.ofList (List.replicate n '-')

def tableHeader : List String :=
  [tableRow "VLAN" "Name" "Type", tableRow (dashes 4) (dashes 32) (dashes 9)]

def tableText (d : Device) : String :=
  if d.vlans.isEmpty then "No VLANs configured"
  else "\n".intercalate <| tableHeader ++
    d.vlans.toList.map fun (id, v) => tableRow id.repr (v.displayName id) v.kind.name

end VlanTrunking.Device
