import VlanTrunking.Proofs.Routing
import VlanTrunking.Proofs.Transition
import VlanTrunking.Proofs.VlanTable

/-! What holds of every service that lines of text can lead to. Devices copy their tables into
records and records into tables without another look, so the invariant is one of all devices and all
records together; a domain with a record was the domain of a device. -/
namespace VlanTrunking

structure Device.WellFormed (d : Device) (id : String) : Prop where
  id : d.id = id
  domain : d.domain = "" ∨ Text.IsWord d.domain
  vlans : d.vlans.WellFormed

def Registry.WellFormed (r : Registry) : Prop :=
  ∀ domain record, r.records[domain]? = some record →
    Text.IsWord domain ∧ record.vlans.WellFormed

structure Service.WellFormed (s : Service) : Prop where
  devices : ∀ (id : String) (d : Device), s.devices[id]? = some d → d.WellFormed id
  registry : s.registry.WellFormed

namespace Device

theorem wellFormed_factory (id : String) : (factory id).WellFormed id :=
  ⟨rfl, .inl rfl, VlanDatabase.wellFormed_empty⟩

theorem WellFormed.withVlans {d : Device} {id : String} (wf : d.WellFormed id)
    {vlans : VlanDatabase} (table : vlans.WellFormed) (revision : Nat) :
    WellFormed { d with vlans, revision } id := ⟨wf.id, wf.domain, table⟩

theorem WellFormed.countEdit {d : Device} {id : String} (wf : d.WellFormed id) :
    d.countEdit.WellFormed id := by
  unfold Device.countEdit
  split
  · exact wf.withVlans wf.vlans _
  · exact wf

theorem WellFormed.setDomain {d : Device} {id domain : String} (wf : d.WellFormed id)
    (word : Text.IsWord domain) : (d.setDomain domain).WellFormed id := by
  unfold Device.setDomain
  split
  · exact wf
  · exact ⟨wf.id, .inr word, wf.vlans⟩

end Device

theorem Edit.wellFormed_ofVlans {d : Device} {id : String} (wf : d.WellFormed id)
    {edited : Except CommandError Device} (accepted : ∀ e, edited = .ok e → e.WellFormed id)
    (text : String) : (ofVlans d edited text).device.WellFormed id := by
  rcases ofVlans_cases d edited text with ⟨_, e, ok, h⟩ | ⟨_, h⟩
  · rw [h]
    exact (accepted e ok).countEdit
  · rw [h]
    exact wf

namespace ConfigCommand

theorem wellFormed_edit {c : ConfigCommand} (read : c.WellFormed) {d : Device} {id : String}
    (wf : d.WellFormed id) : (c.edit d).device.WellFormed id := by
  cases c with
  | setMode | setPassword | enablePruning | disablePruning => exact ⟨wf.id, wf.domain, wf.vlans⟩
  | setDomain domain => exact wf.setDomain read
  | defineVlans ids name =>
    apply Edit.wellFormed_ofVlans wf
    intro e accepted
    obtain ⟨vlans, defined, rfl⟩ := Device.of_defineVlans accepted
    exact wf.withVlans
      (VlanDatabase.wellFormed_of_define wf.vlans read.1.assignable read.2 defined) _
  | removeVlans ids =>
    simp only [edit]
    split
    · exact wf
    · apply Edit.wellFormed_ofVlans wf
      rintro e ⟨⟩
      exact wf.withVlans (VlanDatabase.wellFormed_remove wf.vlans ids) _
  | setPrivateVlan vlan kind =>
    apply Edit.wellFormed_ofVlans wf
    intro e accepted
    obtain ⟨vlans, changed, rfl⟩ := Device.of_setVlanKind accepted
    exact wf.withVlans (VlanDatabase.wellFormed_of_setKind wf.vlans read.1 changed) _

end ConfigCommand

/-- A step that was read from a line. -/
def Step.WellFormed : Step → Prop
  | .config _ c => c.WellFormed
  | .query _ _ => True

theorem Step.wellFormed_edit {step : Step} (read : step.WellFormed) {d : Device} {id : String}
    (wf : d.WellFormed id) : (step.edit d).device.WellFormed id := by
  cases step with
  | config _ c => exact ConfigCommand.wellFormed_edit read wf
  | query _ c => cases c <;> exact wf

namespace Registry

theorem wellFormed_settle {r : Registry} (known : r.WellFormed) {e : Edit} {id : String}
    (wf : e.device.WellFormed id) :
    (r.settle e).1.WellFormed ∧ (r.settle e).2.WellFormed id := by
  constructor
  · rw [settle_registry]
    split
    · next publishes =>
      intro domain record written
      rw [Std.ExtTreeMap.getElem?_insert] at written
      split at written
      · next here =>
        obtain rfl := Std.LawfulEqCmp.eq_of_compare here
        cases written
        exact ⟨wf.domain.resolve_left publishes.advertises.2, wf.vlans⟩
      · exact known domain record written
    · exact known
  · rcases r.settle_cases e with same | ⟨_, record, found, adopted⟩
    · rw [same]
      exact wf
    · rw [adopted]
      exact wf.withVlans (known _ record (records_of_lookup found)).2 _

end Registry

namespace Service

theorem wellFormed_device {s : Service} (wf : s.WellFormed) (id : String) :
    (s.device id).WellFormed id := by
  rw [device_eq_getElem]
  cases known : s.devices[id]? with
  | none => exact Device.wellFormed_factory id
  | some d => exact wf.devices id d known

theorem wellFormed_perform {s : Service} (wf : s.WellFormed) {step : Step}
    (read : step.WellFormed) : (s.perform step).1.WellFormed := by
  rw [perform_state]
  obtain ⟨registry, device⟩ := Registry.wellFormed_settle wf.registry
    (step.wellFormed_edit read (s.wellFormed_device wf step.device))
  refine ⟨fun id d found => ?_, registry⟩
  by_cases here : id = step.device
  · subst here
    rw [getElem_store_self] at found
    cases found
    exact device
  · rw [getElem_store_of_ne _ _ here] at found
    exact wf.devices id d found

end Service

/-- A line of text for a device, given to the router or straight to one of the handlers. -/
inductive Input where
  | routed (device line : String)
  | config (device line : String)
  | query (device line : String)
  deriving DecidableEq, Repr

namespace Service

def take (s : Service) : Input → Service
  | .routed device line => (s.route device line).1
  | .config device line => (s.handleConfig device line).1
  | .query device line => (s.handleShow device line).1

theorem handleConfig_cases (s : Service) (id line : String) :
    (s.handleConfig id line).1 = s ∨
      ∃ step : Step, step.WellFormed ∧ (s.handleConfig id line).1 = (s.perform step).1 := by
  cases read : ConfigCommand.read line with
  | error e =>
    rw [handleConfig_of_unread read]
    exact .inl rfl
  | ok c =>
    rw [handleConfig_of_read read]
    exact .inr ⟨.config id c, ConfigCommand.wellFormed_of_read read, rfl⟩

theorem handleShow_cases (s : Service) (id line : String) :
    (s.handleShow id line).1 = s ∨
      ∃ step : Step, step.WellFormed ∧ (s.handleShow id line).1 = (s.perform step).1 := by
  cases read : ShowCommand.read line with
  | error e =>
    rw [handleShow_of_unread read]
    exact .inl rfl
  | ok c =>
    rw [handleShow_of_read read]
    exact .inr ⟨.query id c, trivial, rfl⟩

theorem take_cases (s : Service) (input : Input) :
    s.take input = s ∨ ∃ step : Step, step.WellFormed ∧ s.take input = (s.perform step).1 := by
  cases input with
  | config id line => exact s.handleConfig_cases id line
  | query id line => exact s.handleShow_cases id line
  | routed id line =>
    by_cases config : LineFamily.ofLine line = .config
    · rw [take, route_of_config config]
      exact s.handleConfig_cases id line
    by_cases query : LineFamily.ofLine line = .query
    · rw [take, route_of_query query]
      exact s.handleShow_cases id line
    obtain ⟨answer, idle⟩ := route_of_neither id config query
    rw [take, idle]
    exact .inl rfl

theorem wellFormed_take {s : Service} (wf : s.WellFormed) (input : Input) :
    (s.take input).WellFormed := by
  rcases s.take_cases input with same | ⟨step, read, stepped⟩
  · rw [same]
    exact wf
  · rw [stepped]
    exact wellFormed_perform wf read

end Service

/-- Whatever lines are given for whatever devices, devices stand under their own ids, tables keep to
their capacity and to assignable ids, and names and domains are made of words. -/
theorem inputs_keep_wellFormed (inputs : List Input) :
    (inputs.foldl Service.take {}).WellFormed := by
  have start : ({} : Service).WellFormed := by
    constructor
    · simp
    · simp [Registry.WellFormed]
  generalize ({} : Service) = s at start ⊢
  induction inputs generalizing s with
  | nil => exact start
  | cons input rest ih => exact ih _ (Service.wellFormed_take start input)

end VlanTrunking
