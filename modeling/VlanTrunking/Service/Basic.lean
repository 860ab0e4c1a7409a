import VlanTrunking.Command.Config
import VlanTrunking.Command.Show
import VlanTrunking.Device.Report
import VlanTrunking.Registry

/-! The switches and the domains of one simulation, and what a command does to them. A command works
on one switch and on the registry; a switch comes into being in its factory state when a command
first names it, even if the command is then turned down. -/
namespace VlanTrunking

structure Service where
  devices : Std.ExtTreeMap String Device := ∅
  registry : Registry := {}
  deriving DecidableEq

namespace ConfigCommand

/-- Completes an edit of the VLANs: an edit that is advertised counts as a new revision. -/
def commitEdit (r : Registry) (d : Device) : Registry × Device :=
  let edited := if d.mode.action .vlanEdited = .publish then d.bumpRevision else d
  r.synchronize edited .vlanEdited

def requireEditable (d : Device) : Except CommandError Unit :=
  if d.mode = .client then .error (.vlanConfigNotAllowed d.mode) else .ok ()

def run (r : Registry) (d : Device) :
    ConfigCommand → Except CommandError ((Registry × Device) × String)
  | setMode mode =>
    .ok (r.synchronize (d.setMode mode) .modeSet, "VTP mode set to " ++ mode.name)
  | setDomain domain =>
    let after := r.synchronize (d.setDomain domain) .domainSet
    let suffix := if d.domain = domain then "" else " (changed)"
    .ok (after, "VTP domain name set to " ++ after.2.shownDomain ++ suffix)
  | setPassword password => .ok ((r, d.setPassword password), "VTP password configured")
  | enablePruning => .ok ((r, d.setPruning true), "VTP pruning enabled")
  | disablePruning => .ok ((r, d.setPruning false), "VTP pruning disabled")
  | defineVlans ids name => do
    requireEditable d
    let edited ← d.defineVlans ids name
    let suffix := match name with
      | some name => " with name " ++ name
      | none => ""
    return (commitEdit r edited, "VLAN " ++ IdList.write ids ++ " defined" ++ suffix)
  | removeVlans ids => do
    requireEditable d
    let (removed, edited) := d.removeVlans ids
    if removed.isEmpty then return ((r, d), "No matching VLANs to remove")
    else return (commitEdit r edited, "VLAN " ++ IdList.write removed ++ " removed")
  | setPrivateVlan id kind => do
    requireEditable d
    let edited ← d.setVlanKind id kind
    return (commitEdit r edited, "VLAN " ++ id.repr ++ " set as " ++ kind.name ++ " private VLAN")

end ConfigCommand

namespace ShowCommand

def run (r : Registry) (d : Device) : ShowCommand → (Registry × Device) × String
  | status => let after := r.synchronize d .statusShown; (after, after.2.statusText)
  | password => ((r, d), d.passwordText)
  | vlans => let after := r.synchronize d .statusShown; (after, after.2.tableText)

end ShowCommand

namespace Service

/-- The switch of an id; one that is not yet known is in its factory state. -/
def device (s : Service) (id : String) : Device := s.devices.getD id (Device.factory id)

def store (s : Service) (id : String) (after : Registry × Device) : Service :=
  { s with devices := s.devices.insert id after.2, registry := after.1 }

/-- Makes a switch known without changing it. -/
def create (s : Service) (id : String) : Service := s.store id (s.registry, s.device id)

def configure (s : Service) (id : String) (c : ConfigCommand) :
    Service × Except CommandError String :=
  match c.run s.registry (s.device id) with
  | .ok (after, reply) => (s.store id after, .ok reply)
  | .error e => (s.create id, .error e)

def report (s : Service) (id : String) (c : ShowCommand) : Service × String :=
  let (after, text) := c.run s.registry (s.device id)
  (s.store id after, text)

def handleConfig (s : Service) (id line : String) : Service × String :=
  match ConfigCommand.read line with
  | .error e => (s, e.message)
  | .ok c =>
    match s.configure id c with
    | (s, .ok reply) => (s, reply)
    | (s, .error e) => (s, e.message)

def handleShow (s : Service) (id line : String) : Service × String :=
  match ShowCommand.read line with
  | .error e => (s, e.message)
  | .ok c => s.report id c

end Service

end VlanTrunking
