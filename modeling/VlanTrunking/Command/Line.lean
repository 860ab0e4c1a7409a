import VlanTrunking.Text.Blank

/-! The family of a command line, told from how its text begins once blanks at its ends are dropped
and letters are in lower case. Words in a beginning stand one space apart. -/
namespace VlanTrunking

inductive LineFamily where
  | empty
  | config
  | query
  | ping
  | unknown
  deriving DecidableEq, Repr

namespace LineFamily

/-- A configuration line starts with a keyword and a space, or with one of these texts. -/
def startsConfig (s : String) : Bool :=
  "vtp ".toList.isPrefixOf s.toList || s = "vtp pruning" ||
    "no vtp pruning".toList.isPrefixOf s.toList || "vlan ".toList.isPrefixOf s.toList ||
    "no vlan ".toList.isPrefixOf s.toList || "private-vlan".toList.isPrefixOf s.toList

def startsQuery (s : String) : Bool :=
  "show vtp".toList.isPrefixOf s.toList || "show vlan".toList.isPrefixOf s.toList

def ofLine (line : String) : LineFamily :=
  let s := Text.lower (Text.trim line)
  if s = "" then empty
  else if startsConfig s then config
  else if startsQuery s then query
  else if "ping".toList.isPrefixOf s.toList then ping
  else unknown

end LineFamily

end VlanTrunking
