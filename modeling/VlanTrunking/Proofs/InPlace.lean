import VlanTrunking.Proofs.Routing
import VlanTrunking.Proofs.VlanEdits

/-! Commands at work on the service itself: the switch comes into being, is checked and changed bit
by bit, and the registry after it. What was done before a refusal stays done here, so it matters in
which order things are done. Each of these programs does to the service just what is said of the
command as a whole. -/
namespace VlanTrunking

theorem VlanDatabase.erase_of_unknown {db : VlanDatabase} {id : VlanId} (unknown : id ∉ db) :
    db.erase id = db := by
  apply Std.ExtTreeMap.ext_getElem?
  intro other
  rw [Std.ExtTreeMap.getElem?_erase]
  split
  · next same =>
    rw [← Std.LawfulEqCmp.compare_eq_iff_eq.mp same, Std.ExtTreeMap.getElem?_eq_none unknown]
  · rfl

namespace Device

def requireEditable : InPlace := do
  let d ← get
  if d.mode = .client then throw (.vlanConfigNotAllowed d.mode)

/-- The listed VLANs go one by one, and those that were there are named. -/
def removeInPlace : List VlanId → EStateM CommandError Device (List VlanId)
  | [] => return []
  | id :: ids => do
    let known := (← get).vlans.contains id
    modify fun d => { d with vlans := d.vlans.erase id }
    let removed ← removeInPlace ids
    return if known then id :: removed else removed

theorem removeVlans_of_none {d : Device} {ids : List VlanId}
    (none_there : (d.removeVlans ids).1.isEmpty = true) : (d.removeVlans ids).2 = d := by
  have unknown := (VlanDatabase.remove_isEmpty d.vlans ids).mp none_there
  have rest : (d.vlans.remove ids).2 = d.vlans := by
    apply Std.ExtTreeMap.ext_getElem?
    intro id
    rw [VlanDatabase.getElem?_remove]
    split
    · next listed => rw [Std.ExtTreeMap.getElem?_eq_none (unknown id listed)]
    · rfl
  change { d with vlans := (d.vlans.remove ids).2 } = d
  rw [rest]

theorem requireEditable_run (d : Device) :
    requireEditable.run d = d.outcome ((ConfigCommand.requireEditable d).map fun _ => d) := by
  by_cases client : d.mode = .client <;>
    simp [requireEditable, ConfigCommand.requireEditable, client, outcome, Except.map]

theorem removeInPlace_run (ids : List VlanId) (d : Device) :
    (removeInPlace ids).run d = .ok (d.removeVlans ids).1 (d.removeVlans ids).2 := by
  induction ids generalizing d with
  | nil => rfl
  | cons id ids ih =>
    by_cases known : id ∈ d.vlans
    · simp_all [removeInPlace, removeVlans, VlanDatabase.remove, -bind_pure_comp]
    · simp_all [removeInPlace, removeVlans, VlanDatabase.remove, VlanDatabase.erase_of_unknown known]

end Device

namespace Service

abbrev InPlace := EStateM CommandError Service

namespace InPlace

variable (id : String)

def create : InPlace Unit := modify (·.create id)

/-- Work on a switch where it stands in the service. -/
def onDevice {α : Type} (work : EStateM CommandError Device α) : InPlace α := fun s =>
  match work.run (s.device id) with
  | .ok a d => .ok a (s.store id (s.registry, d))
  | .error e d => .error e (s.store id (s.registry, d))

def synchronize (t : Trigger) : InPlace Unit :=
  modify fun s => s.store id (s.registry.synchronize (s.device id) t)

def commitEdit : InPlace Unit := do
  onDevice id do
    if (← get).mode.action .vlanEdited = .publish then modify Device.bumpRevision
  synchronize id .vlanEdited

def carryOut : ConfigCommand → InPlace String
  | .setMode mode => do
    onDevice id (modify (·.setMode mode))
    synchronize id .modeSet
    return "VTP mode set to " ++ mode.name
  | .setDomain domain => do
    let former ← onDevice id (modifyGet fun d => (d.domain, d.setDomain domain))
    synchronize id .domainSet
    let suffix := if former = domain then "" else " (changed)"
    return "VTP domain name set to " ++ ((← get).device id).shownDomain ++ suffix
  | .setPassword password => do
    onDevice id (modify (·.setPassword password))
    return "VTP password configured"
  | .enablePruning => do
    onDevice id (modify (·.setPruning true))
    return "VTP pruning enabled"
  | .disablePruning => do
    onDevice id (modify (·.setPruning false))
    return "VTP pruning disabled"
  | .defineVlans ids name => do
    onDevice id Device.requireEditable
    onDevice id (Device.modifyInPlace ids fun v => { v with name := name <|> v.name })
    commitEdit id
    let suffix := match name with
      | some name => " with name " ++ name
      | none => ""
    return "VLAN " ++ IdList.write ids ++ " defined" ++ suffix
  | .removeVlans ids => do
    onDevice id Device.requireEditable
    let removed ← onDevice id (Device.removeInPlace ids)
    if removed.isEmpty then
      return "No matching VLANs to remove"
    else
      commitEdit id
      return "VLAN " ++ IdList.write removed ++ " removed"
  | .setPrivateVlan vlan kind => do
    onDevice id Device.requireEditable
    onDevice id (Device.modifyInPlace [vlan] fun v => { v with kind })
    commitEdit id
    return "VLAN " ++ vlan.repr ++ " set as " ++ kind.name ++ " private VLAN"

def configure (c : ConfigCommand) : InPlace String := do
  create id
  carryOut id c

def report (c : ShowCommand) : InPlace String := do
  create id
  match c with
  | .status =>
    synchronize id .statusShown
    return ((← get).device id).statusText
  | .password => return ((← get).device id).passwordText
  | .vlans =>
    synchronize id .statusShown
    return ((← get).device id).tableText

def shown (work : InPlace String) : InPlace String := tryCatch work fun e => return e.message

def handleConfig (line : String) : InPlace String :=
  shown <|
    match ConfigCommand.read line with
    | .ok c => configure id c
    | .error e => throw e

def handleShow (line : String) : InPlace String :=
  match ShowCommand.read line with
  | .ok c => report id c
  | .error e => return e.message

def route (line : String) : InPlace Routed := do
  let line := Text.trim line
  match LineFamily.ofLine line with
  | .empty => return .rejected .emptyCommand
  | .config => return .reply (← handleConfig id line)
  | .query => return .reply (← handleShow id line)
  | .ping => return .ping ((Text.words line)[1]?.getD defaultPingTarget)
  | .unknown => return .rejected (.unknownCommand line)

def ended {α : Type} : Service × Except CommandError α → EStateM.Result CommandError Service α
  | (s, .ok a) => .ok a s
  | (s, .error e) => .error e s

section Stored

variable (s : Service) (r : Registry) (d : Device)

theorem onDevice_run {α : Type} (work : EStateM CommandError Device α) :
    (onDevice id work).run (s.store id (r, d)) =
      match work.run d with
      | .ok a e => .ok a (s.store id (r, e))
      | .error fault e => .error fault (s.store id (r, e)) := by
  simp only [EStateM.run, onDevice, device_store_self, store_registry, store_store]

theorem synchronize_run (t : Trigger) :
    (synchronize id t).run (s.store id (r, d)) = .ok () (s.store id (r.synchronize d t)) := by
  simp [synchronize, store_store]

theorem commitEdit_run :
    (commitEdit id).run (s.store id (r, d)) = .ok () (s.store id (ConfigCommand.commitEdit r d)) := by
  by_cases counts : d.mode.action .vlanEdited = .publish <;>
    simp [commitEdit, onDevice_run, synchronize_run, ConfigCommand.commitEdit, counts]

theorem requireEditable_run (rest : InPlace String) :
    (do onDevice id Device.requireEditable; rest).run (s.store id (r, d)) =
      match ConfigCommand.requireEditable d with
      | .ok _ => rest.run (s.store id (r, d))
      | .error e => .error e (s.store id (r, d)) := by
  rw [EStateM.run_bind, onDevice_run, Device.requireEditable_run]
  cases ConfigCommand.requireEditable d <;> rfl

theorem modifyInPlace_run (ids : List VlanId) (f : Vlan → Vlan) (rest : InPlace String) :
    (do onDevice id (Device.modifyInPlace ids f); rest).run (s.store id (r, d)) =
      match d.modifyVlans ids f with
      | .ok e => rest.run (s.store id (r, e))
      | .error e => .error e (s.store id (r, d)) := by
  rw [EStateM.run_bind, onDevice_run, Device.modifyInPlace_run]
  cases d.modifyVlans ids f <;> rfl

theorem reply_run (text : String) :
    (do commitEdit id; return text).run (s.store id (r, d)) =
      .ok text (s.store id (ConfigCommand.commitEdit r d)) := by
  rw [EStateM.run_bind, commitEdit_run]
  rfl

theorem carryOut_run (c : ConfigCommand) :
    (carryOut id c).run (s.store id (r, d)) =
      match c.run r d with
      | .ok (after, reply) => .ok reply (s.store id after)
      | .error e => .error e (s.store id (r, d)) := by
  cases c with
  | setMode | setPassword | enablePruning | disablePruning | setDomain =>
    simp [carryOut, onDevice_run, synchronize_run, ConfigCommand.run, -bind_pure_comp]
  | defineVlans ids name =>
    simp only [carryOut, requireEditable_run, modifyInPlace_run, reply_run, ConfigCommand.run,
      Device.defineVlans_eq]
    cases ConfigCommand.requireEditable d with
    | error e => rfl
    | ok _ => cases d.modifyVlans ids fun v => { v with name := name <|> v.name } <;> rfl
  | removeVlans ids =>
    simp only [carryOut, requireEditable_run, ConfigCommand.run]
    cases ConfigCommand.requireEditable d with
    | error e => rfl
    | ok _ =>
      change (onDevice id (Device.removeInPlace ids) >>= _).run _ = _
      rw [EStateM.run_bind, onDevice_run, Device.removeInPlace_run]
      by_cases none_there : (d.removeVlans ids).1.isEmpty = true
      · simp [none_there, Device.removeVlans_of_none none_there]
      · have replied := reply_run id s r (d.removeVlans ids).2
        simp only [none_there]
        exact replied _
  | setPrivateVlan vlan kind =>
    simp only [carryOut, requireEditable_run, modifyInPlace_run, reply_run, ConfigCommand.run,
      Device.setVlanKind_eq]
    cases ConfigCommand.requireEditable d with
    | error e => rfl
    | ok _ => cases d.modifyVlans [vlan] fun v => { v with kind } <;> rfl

end Stored

variable (s : Service)

theorem create_run : (create id).run s = .ok () (s.store id (s.registry, s.device id)) := rfl

theorem configure_run (c : ConfigCommand) :
    (configure id c).run s = ended (s.configure id c) := by
  rw [configure, EStateM.run_bind, create_run]
  dsimp only
  rw [carryOut_run, Service.configure]
  cases c.run s.registry (s.device id) <;> rfl

theorem report_run (c : ShowCommand) :
    (report id c).run s = .ok (s.report id c).2 (s.report id c).1 := by
  cases c <;>
    simp [report, create_run, synchronize_run, Service.report, ShowCommand.run, -bind_pure_comp]

theorem shown_run (work : InPlace String) :
    (shown work).run s =
      match work.run s with
      | .ok reply t => .ok reply t
      | .error e t => .ok e.message t := by
  unfold shown tryCatch
  change EStateM.tryCatch work _ s = _
  unfold EStateM.tryCatch EStateM.run
  cases work s <;> rfl

theorem handleConfig_run (line : String) :
    (handleConfig id line).run s = .ok (s.handleConfig id line).2 (s.handleConfig id line).1 := by
  cases read : ConfigCommand.read line with
  | error e =>
    rw [handleConfig, read, handleConfig_of_unread read]
    rfl
  | ok c =>
    rw [handleConfig, read, handleConfig_of_read read, shown_run, configure_run, perform]
    rcases s.configure id c with ⟨t, e | reply⟩ <;> rfl

theorem handleShow_run (line : String) :
    (handleShow id line).run s = .ok (s.handleShow id line).2 (s.handleShow id line).1 := by
  cases read : ShowCommand.read line with
  | error e =>
    rw [handleShow, read, handleShow_of_unread read]
    rfl
  | ok c =>
    rw [handleShow, read, handleShow_of_read read]
    exact report_run id s c

theorem route_run (line : String) :
    (route id line).run s = .ok (s.route id line).2 (s.route id line).1 := by
  cases family : LineFamily.ofLine (Text.trim line) with
  | config =>
    simp only [route, Service.route, family]
    rw [EStateM.run_bind, handleConfig_run]
    rfl
  | query =>
    simp only [route, Service.route, family]
    rw [EStateM.run_bind, handleShow_run]
    rfl
  | empty | ping | unknown =>
    simp only [route, Service.route, family]
    rfl

/-- The work comes to what the service says of the commands and lines as a whole. -/
structure Agrees (s : Service) (id line : String) : Prop where
  configure (c : ConfigCommand) : (configure id c).run s = ended (s.configure id c)
  report (c : ShowCommand) : (report id c).run s = .ok (s.report id c).2 (s.report id c).1
  handleConfig :
    (handleConfig id line).run s = .ok (s.handleConfig id line).2 (s.handleConfig id line).1
  handleShow : (handleShow id line).run s = .ok (s.handleShow id line).2 (s.handleShow id line).1
  route : (route id line).run s = .ok (s.route id line).2 (s.route id line).1

theorem agrees (s : Service) (id line : String) : Agrees s id line :=
  ⟨configure_run id s, report_run id s, handleConfig_run id s line, handleShow_run id s line,
    route_run id s line⟩

end InPlace

end Service

end VlanTrunking
