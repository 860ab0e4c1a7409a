import VlanTrunking.Command.Error

/-! Show commands and their text form, with keywords in any letter case. -/
namespace VlanTrunking

inductive ShowCommand where
  | status
  | password
  | vlans
  deriving DecidableEq, Repr

namespace ShowCommand

/-- Words after the vtp reports are passed over, while the VLAN table takes brief and
nothing else. -/
def ofKeywords : List String → Except CommandError ShowCommand
  | "show" :: "vtp" :: "status" :: _ => .ok status
  | "show" :: "vtp" :: "password" :: _ => .ok password
  | ["show", "vlan"] | ["show", "vlan", "brief"] => .ok vlans
  | _ => .error .unsupportedShow

def read (line : String) : Except CommandError ShowCommand :=
  ofKeywords ((Text.words line).map Text.lower)

end ShowCommand

end VlanTrunking
