import VlanTrunking.Proofs.Synchronization
import VlanTrunking.Service.Step

/-! One step of the service in two stages. A command first changes its device without looking at any
other state, and then, on some occasions, the device is synchronised with the registry. Everything
a step can do or answer is read off these two stages. -/
namespace VlanTrunking

def Device.countEdit (d : Device) : Device :=
  if d.mode.action .vlanEdited = .publish then d.bumpRevision else d

@[simp] theorem Device.countEdit_mode (d : Device) : d.countEdit.mode = d.mode := by
  unfold countEdit
  split <;> rfl

theorem Device.countEdit_vlans (d : Device) : d.countEdit.vlans = d.vlans := by
  unfold countEdit
  split <;> rfl

theorem Device.of_defineVlans {d e : Device} {ids : List VlanId} {name : Option String}
    (h : d.defineVlans ids name = .ok e) :
    ∃ vlans, d.vlans.define ids name = .ok vlans ∧ e = { d with vlans } := by
  obtain ⟨vlans, defined, h⟩ := accepted_bind.mp h
  exact ⟨vlans, defined, (Except.ok.inj h).symm⟩

theorem Device.of_setVlanKind {d e : Device} {id : VlanId} {kind : VlanKind}
    (h : d.setVlanKind id kind = .ok e) :
    ∃ vlans, d.vlans.setKind id kind = .ok vlans ∧ e = { d with vlans } := by
  obtain ⟨vlans, changed, h⟩ := accepted_bind.mp h
  exact ⟨vlans, changed, (Except.ok.inj h).symm⟩

/-- The outcome of the first stage: the changed device, the occasion for synchronising it if there
is one, and the reply, which may speak of the device as the second stage leaves it. -/
structure Edit where
  device : Device
  occasion : Option Trigger
  reply : Device → Except CommandError String

namespace Edit

def Publishes (e : Edit) : Prop := ∃ t ∈ e.occasion, e.device.PublishesOn t

instance (e : Edit) : Decidable e.Publishes :=
  inferInstanceAs (Decidable (∃ t ∈ e.occasion, e.device.PublishesOn t))

theorem Publishes.advertises {e : Edit} (h : e.Publishes) : e.device.Advertises :=
  let ⟨_, _, publishes⟩ := h
  publishes.1

def unsynchronized (d : Device) (reply : Except CommandError String) : Edit :=
  ⟨d, none, fun _ => reply⟩

def ofVlans (d : Device) (edited : Except CommandError Device) (text : String) : Edit :=
  match ConfigCommand.requireEditable d, edited with
  | .error e, _ | .ok _, .error e => .unsynchronized d (.error e)
  | .ok _, .ok edited => ⟨edited.countEdit, some .vlanEdited, fun _ => .ok text⟩

theorem ofVlans_cases (d : Device) (edited : Except CommandError Device) (text : String) :
    (d.mode ≠ .client ∧ ∃ e, edited = .ok e ∧
      ofVlans d edited text = ⟨e.countEdit, some .vlanEdited, fun _ => .ok text⟩) ∨
    ∃ e, ofVlans d edited text = .unsynchronized d (.error e) := by
  unfold ofVlans ConfigCommand.requireEditable
  by_cases client : d.mode = .client
  · exact .inr ⟨_, by rw [if_pos client]⟩
  · rw [if_neg client]
    cases edited with
    | error e => exact .inr ⟨e, rfl⟩
    | ok e => exact .inl ⟨client, e, rfl, rfl⟩

end Edit

namespace ConfigCommand

def edit (d : Device) : ConfigCommand → Edit
  | setMode mode => ⟨d.setMode mode, some .modeSet, fun _ => .ok ("VTP mode set to " ++ mode.name)⟩
  | setDomain domain =>
    let suffix := if d.domain = domain then "" else " (changed)"
    ⟨d.setDomain domain, some .domainSet,
      fun after => .ok ("VTP domain name set to " ++ after.shownDomain ++ suffix)⟩
  | setPassword password => .unsynchronized (d.setPassword password) (.ok "VTP password configured")
  | enablePruning => .unsynchronized (d.setPruning true) (.ok "VTP pruning enabled")
  | disablePruning => .unsynchronized (d.setPruning false) (.ok "VTP pruning disabled")
  | defineVlans ids name =>
    let suffix := match name with
      | some name => " with name " ++ name
      | none => ""
    .ofVlans d (d.defineVlans ids name) ("VLAN " ++ IdList.write ids ++ " defined" ++ suffix)
  | removeVlans ids =>
    let (removed, edited) := d.removeVlans ids
    if removed.isEmpty then
      .unsynchronized d ((requireEditable d).map fun _ => "No matching VLANs to remove")
    else .ofVlans d (.ok edited) ("VLAN " ++ IdList.write removed ++ " removed")
  | setPrivateVlan id kind =>
    .ofVlans d (d.setVlanKind id kind)
      ("VLAN " ++ id.repr ++ " set as " ++ kind.name ++ " private VLAN")

theorem edit_removeVlans_of_none {d : Device} {ids : List VlanId}
    (none_there : (d.vlans.remove ids).1 = []) :
    (removeVlans ids).edit d = .unsynchronized d
      ((requireEditable d).map fun _ => "No matching VLANs to remove") := by
  simp [edit, Device.removeVlans, none_there]

theorem edit_removeVlans_of_some {d : Device} {ids : List VlanId}
    (some_there : (d.vlans.remove ids).1 ≠ []) :
    (removeVlans ids).edit d = .ofVlans d (.ok (d.removeVlans ids).2)
      ("VLAN " ++ IdList.write (d.vlans.remove ids).1 ++ " removed") := by
  simp [edit, Device.removeVlans, some_there]

end ConfigCommand

def ShowCommand.edit (d : Device) : ShowCommand → Edit
  | status => ⟨d, some .statusShown, fun after => .ok after.statusText⟩
  | password => .unsynchronized d (.ok d.passwordText)
  | vlans => ⟨d, some .statusShown, fun after => .ok after.tableText⟩

theorem ShowCommand.edit_device (c : ShowCommand) (d : Device) : (c.edit d).device = d := by
  cases c <;> rfl

def Step.edit (d : Device) : Step → Edit
  | .config _ c => c.edit d
  | .query _ c => c.edit d

namespace Registry

/-- The second stage of a step: the device is synchronised if there is an occasion for it. -/
def settle (r : Registry) (e : Edit) : Registry × Device :=
  match e.occasion with
  | some t => r.synchronize e.device t
  | none => (r, e.device)

theorem settle_cases (r : Registry) (e : Edit) :
    (r.settle e).2 = e.device ∨ e.device.mode = .client ∧
      ∃ record, r.lookup e.device.domain = some record ∧
        (r.settle e).2 = e.device.adopt record := by
  obtain ⟨d, _ | t, reply⟩ := e
  · exact .inl rfl
  · exact r.synchronize_cases d t

@[simp] theorem settle_mode (r : Registry) (e : Edit) : (r.settle e).2.mode = e.device.mode := by
  rcases r.settle_cases e with h | ⟨_, record, _, h⟩
  · rw [h]
  · rw [h, Device.adopt_mode]

@[simp] theorem settle_domain (r : Registry) (e : Edit) :
    (r.settle e).2.domain = e.device.domain := by
  rcases r.settle_cases e with h | ⟨_, record, _, h⟩
  · rw [h]
  · rw [h, Device.adopt_domain]

theorem settle_advertises (r : Registry) (e : Edit) :
    (r.settle e).2.Advertises ↔ e.device.Advertises := by
  rw [Device.Advertises, settle_mode, settle_domain, Device.Advertises]

theorem settle_of_not_client (r : Registry) {e : Edit} (h : e.device.mode ≠ .client) :
    (r.settle e).2 = e.device :=
  (r.settle_cases e).resolve_right fun client => h client.1

theorem settle_registry (r : Registry) (e : Edit) :
    (r.settle e).1 =
      if e.Publishes then ⟨r.records.insert e.device.domain e.device.record⟩ else r := by
  obtain ⟨d, _ | t, reply⟩ := e
  · simp [settle, Edit.Publishes]
  · simp [settle, Edit.Publishes, synchronize_registry]

theorem lookup_settle (r : Registry) (e : Edit) (domain : String) :
    (r.settle e).1.lookup domain =
      if e.Publishes ∧ e.device.domain = domain then some (r.settle e).2.record
      else r.lookup domain := by
  rw [settle_registry]
  by_cases h : e.Publishes
  · have still := r.settle_of_not_client (Device.not_client_of_server h.advertises.1)
    simp [h, still, lookup_insert r h.advertises.2]
  · simp [h]

end Registry

namespace Service

@[simp] theorem store_registry (s : Service) (id : String) (after : Registry × Device) :
    (s.store id after).registry = after.1 := rfl

@[simp] theorem device_store_self (s : Service) (id : String) (after : Registry × Device) :
    (s.store id after).device id = after.2 := by
  simp [device, store]

theorem store_store (s : Service) (id : String) (a b : Registry × Device) :
    (s.store id a).store id b = s.store id b := by
  simp only [store, insert_insert]

theorem getElem_store_self (s : Service) (id : String) (after : Registry × Device) :
    (s.store id after).devices[id]? = some after.2 :=
  Std.ExtTreeMap.getElem?_insert_self

theorem getElem_store_of_ne (s : Service) {id other : String} (after : Registry × Device)
    (h : other ≠ id) : (s.store id after).devices[other]? = s.devices[other]? := by
  simp [store, Std.ExtTreeMap.getElem?_insert, h.symm]

theorem device_eq_getElem (s : Service) (id : String) :
    s.device id = s.devices[id]?.getD (Device.factory id) :=
  Std.ExtTreeMap.getD_eq_getD_getElem?

theorem device_store_of_ne (s : Service) {id other : String} (after : Registry × Device)
    (h : other ≠ id) : (s.store id after).device other = s.device other := by
  rw [device_eq_getElem, device_eq_getElem, getElem_store_of_ne s after h]

theorem configure_eq (s : Service) (id : String) (c : ConfigCommand) :
    s.configure id c =
      let e := c.edit (s.device id)
      let after := s.registry.settle e
      (s.store id after, e.reply after.2) := by
  unfold configure create
  generalize s.device id = d
  cases c with
  | defineVlans ids name =>
    simp only [ConfigCommand.run, ConfigCommand.edit, bind, Except.bind]
    cases he : ConfigCommand.requireEditable d <;> cases hd : d.defineVlans ids name <;>
      simp only [Edit.ofVlans, he] <;> rfl
  | removeVlans ids =>
    simp only [ConfigCommand.run, ConfigCommand.edit, bind, Except.bind]
    by_cases removed : (d.removeVlans ids).1.isEmpty = true <;>
      cases he : ConfigCommand.requireEditable d <;>
        simp only [Edit.ofVlans, he, removed] <;> rfl
  | setPrivateVlan id kind =>
    simp only [ConfigCommand.run, ConfigCommand.edit, bind, Except.bind]
    cases he : ConfigCommand.requireEditable d <;> cases hd : d.setVlanKind id kind <;>
      simp only [Edit.ofVlans, he] <;> rfl
  | _ => rfl

/-- A step is its first stage followed by its second. -/
theorem perform_eq (s : Service) (step : Step) :
    s.perform step =
      let e := step.edit (s.device step.device)
      let after := s.registry.settle e
      (s.store step.device after, e.reply after.2) := by
  cases step with
  | config id c => exact s.configure_eq id c
  | query id c => cases c <;> rfl

theorem perform_state (s : Service) (step : Step) :
    (s.perform step).1 =
      s.store step.device (s.registry.settle (step.edit (s.device step.device))) :=
  congrArg Prod.fst (s.perform_eq step)

theorem perform_reply (s : Service) (step : Step) :
    (s.perform step).2 =
      (step.edit (s.device step.device)).reply ((s.perform step).1.device step.device) := by
  rw [perform_eq, device_store_self]

end Service

end VlanTrunking
