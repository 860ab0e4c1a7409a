import VlanTrunking.Text.Blank

/-! Operating modes of a switch, and what each mode does to its domain when something happens.
Servers advertise, clients follow, and the other two modes keep to themselves. -/
namespace VlanTrunking

inductive Mode where
  | server
  | client
  | transparent
  | off
  deriving DecidableEq, Repr, Inhabited

/-- The occasions on which a switch may exchange data with its domain. -/
inductive Trigger where
  | modeSet
  | domainSet
  | statusShown
  | vlanEdited
  deriving DecidableEq, Repr

inductive SyncAction where
  | publish
  | pull
  | none
  deriving DecidableEq, Repr

namespace Mode

def all : List Mode := [server, client, transparent, off]

def name : Mode → String
  | server => "server"
  | client => "client"
  | transparent => "transparent"
  | off => "off"

def ofName? (token : String) : Option Mode :=
  all.find? fun m => m.name = Text.lower token

theorem ofName?_name (mode : Mode) : ofName? mode.name = some mode := by cases mode <;> decide

/-- A server advertises whatever may have changed, but showing its status changes nothing. A client
follows its domain except on an edit, which it refuses. -/
def action : Mode → Trigger → SyncAction
  | server, .statusShown => .none
  | server, _ => .publish
  | client, .vlanEdited => .none
  | client, _ => .pull
  | _, _ => .none

end Mode

end VlanTrunking
