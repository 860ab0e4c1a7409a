import VlanTrunking.Proofs.History
import VlanTrunking.Proofs.Reading
import VlanTrunking.Proofs.Routing

/-! What a line for one device leaves alone. A step changes a setting of its device only if it is
the command for that setting, and beside that no more than the revision and the VLANs; of everything
else in the service it writes at most the record of the domain that its device is then in. -/
namespace VlanTrunking

/-- The step that a line asks for: it goes to a handler, whose reader accepts it. -/
def Step.ofLine? (id line : String) : Option Step :=
  match LineFamily.ofLine line with
  | .config => (ConfigCommand.read line).toOption.map (.config id)
  | .query => (ShowCommand.read line).toOption.map (.query id)
  | .empty | .ping | .unknown => none

/-- A device with the setting that a command is for. -/
def ConfigCommand.set (d : Device) : ConfigCommand → Device
  | setMode mode => { d with mode }
  | setDomain domain => { d with domain }
  | setPassword password => { d with password := some password }
  | enablePruning => { d with pruning := true }
  | disablePruning => { d with pruning := false }
  | defineVlans .. | removeVlans _ | setPrivateVlan .. => d

def Step.set (d : Device) : Step → Device
  | .config _ c => c.set d
  | .query .. => d

namespace Device

theorem adopt_adopt (d : Device) (r r' : DomainRecord) : (d.adopt r).adopt r' = d.adopt r' := rfl

theorem adopt_record (d : Device) : d.adopt d.record = d := rfl

theorem setDomain_eq_adopt (d : Device) (domain : String) :
    ∃ record, d.setDomain domain = { d with domain }.adopt record := by
  by_cases same : d.domain = domain
  · subst same
    exact ⟨d.record, by rw [setDomain, if_pos rfl]; rfl⟩
  · exact ⟨⟨0, d.vlans⟩, by rw [setDomain, if_neg same]; rfl⟩

theorem countEdit_eq_adopt (d : Device) : ∃ record, d.countEdit = d.adopt record := by
  unfold countEdit
  split
  · exact ⟨d.bumpRevision.record, rfl⟩
  · exact ⟨d.record, rfl⟩

end Device

theorem Edit.ofVlans_eq_adopt {d : Device} {edited : Except CommandError Device}
    (contents : ∀ e, edited = .ok e → ∃ record, e = d.adopt record) (text : String) :
    ∃ record, (ofVlans d edited text).device = d.adopt record := by
  rcases ofVlans_cases d edited text with ⟨_, e, accepted, h⟩ | ⟨_, h⟩
  · obtain ⟨record, rfl⟩ := contents e accepted
    obtain ⟨counted, count⟩ := (d.adopt record).countEdit_eq_adopt
    exact ⟨counted, by rw [h, count, Device.adopt_adopt]⟩
  · exact ⟨d.record, by rw [h]; rfl⟩

theorem ConfigCommand.edit_eq_adopt (c : ConfigCommand) (d : Device) :
    ∃ record, (c.edit d).device = (c.set d).adopt record := by
  cases c with
  | setMode | setPassword | enablePruning | disablePruning => exact ⟨d.record, rfl⟩
  | setDomain domain => exact d.setDomain_eq_adopt domain
  | defineVlans ids name =>
    apply Edit.ofVlans_eq_adopt
    intro e accepted
    obtain ⟨vlans, _, rfl⟩ := Device.of_defineVlans accepted
    exact ⟨⟨d.revision, vlans⟩, rfl⟩
  | removeVlans ids =>
    simp only [edit]
    split
    · exact ⟨d.record, rfl⟩
    · apply Edit.ofVlans_eq_adopt
      rintro e ⟨⟩
      exact ⟨⟨d.revision, (d.vlans.remove ids).2⟩, rfl⟩
  | setPrivateVlan id kind =>
    apply Edit.ofVlans_eq_adopt
    intro e accepted
    obtain ⟨vlans, _, rfl⟩ := Device.of_setVlanKind accepted
    exact ⟨⟨d.revision, vlans⟩, rfl⟩

theorem Step.edit_eq_adopt (step : Step) (d : Device) :
    ∃ record, (step.edit d).device = (step.set d).adopt record := by
  cases step with
  | config id c => exact c.edit_eq_adopt d
  | query id c => exact ⟨d.record, c.edit_device d⟩

namespace Moment

theorem getElem_after_of_ne (m : Moment) {other : String} (h : other ≠ m.step.device) :
    m.after.devices[other]? = m.before.devices[other]? := by
  rw [after_eq_store, Service.getElem_store_of_ne _ _ h]

theorem mem_after (m : Moment) (other : String) :
    other ∈ m.after.devices ↔ other ∈ m.before.devices ∨ other = m.step.device := by
  rw [after_eq_store, Service.store, Std.ExtTreeMap.mem_insert, Std.LawfulEqCmp.compare_eq_iff_eq,
    or_comm, eq_comm]

theorem registry_after (m : Moment) :
    m.after.registry = m.before.registry ∨ m.left.Advertises ∧
      m.after.registry = ⟨m.before.registry.records.insert m.left.domain m.left.record⟩ := by
  rw [after_eq_store, Service.store_registry, Registry.settle_registry]
  split
  · next publishes =>
    have still : m.left = m.edited.device := by
      rw [left_eq_settle]
      exact Registry.settle_of_not_client _ (Device.not_client_of_server publishes.advertises.1)
    rw [still]
    exact .inr ⟨publishes.advertises, rfl⟩
  · exact .inl rfl

/-- Whatever a step does to its device, the setting it is for and the contents are all. -/
theorem left_eq_adopt (m : Moment) : ∃ record, m.left = (m.step.set m.prior).adopt record := by
  obtain ⟨record, edit⟩ := m.step.edit_eq_adopt m.prior
  rw [left_eq_settle]
  rcases m.before.registry.settle_cases m.edited with same | ⟨_, record', _, adopted⟩
  · exact ⟨record, same.trans edit⟩
  · refine ⟨record', ?_⟩
    rw [adopted, edited, edit, Device.adopt_adopt]

theorem after_of_query {m : Moment} (query : ∀ c, m.step ≠ .config m.step.device c) :
    m.after.registry = m.before.registry ∧ (∃ record, m.left = m.prior.adopt record) ∧
      (m.prior.mode ≠ .client → m.left = m.prior) := by
  obtain ⟨c, step⟩ : ∃ c, m.step = .query m.step.device c := by
    obtain ⟨s, step⟩ := m
    cases step with
    | config id c => exact absurd rfl (query c)
    | query id c => exact ⟨c, rfl⟩
  have edit : m.edited = c.edit m.prior := by rw [edited, step, Step.edit]
  have unchanged : m.edited.device = m.prior := by rw [edit, c.edit_device]
  have quiet : ¬m.edited.Publishes := by
    rw [edit]
    cases c <;> simp [ShowCommand.edit, Edit.Publishes, Edit.unsynchronized, Device.PublishesOn]
  refine ⟨?_, ?_, fun not_client => ?_⟩
  · rw [after_eq_store, Service.store_registry, Registry.settle_registry, if_neg quiet]
  · obtain ⟨record, left⟩ := m.left_eq_adopt
    rw [step] at left
    exact ⟨record, left⟩
  · rw [left_eq_settle, Registry.settle_of_not_client _ (unchanged ▸ not_client), unchanged]

end Moment

theorem Step.set_id (step : Step) (d : Device) : (step.set d).id = d.id := by
  cases step with
  | query id c => rfl
  | config id c => cases c <;> rfl

theorem Step.set_changes (step : Step) (d : Device) :
    ((step.set d).mode ≠ d.mode → ∃ mode, step = .config step.device (.setMode mode)) ∧
    ((step.set d).domain ≠ d.domain → ∃ domain, step = .config step.device (.setDomain domain)) ∧
    ((step.set d).password ≠ d.password → ∃ p, step = .config step.device (.setPassword p)) ∧
    ((step.set d).pruning ≠ d.pruning →
      ∃ c ∈ [.enablePruning, .disablePruning], step = .config step.device c) := by
  cases step with
  | query id c => simp [set]
  | config id c => cases c <;> simp [set, ConfigCommand.set, device]

namespace Moment

theorem left_changes (m : Moment) :
    (m.left.mode ≠ m.prior.mode → ∃ mode, m.step = .config m.step.device (.setMode mode)) ∧
    (m.left.domain ≠ m.prior.domain →
      ∃ domain, m.step = .config m.step.device (.setDomain domain)) ∧
    (m.left.password ≠ m.prior.password → ∃ p, m.step = .config m.step.device (.setPassword p)) ∧
    (m.left.pruning ≠ m.prior.pruning →
      ∃ c ∈ [.enablePruning, .disablePruning], m.step = .config m.step.device c) := by
  obtain ⟨record, left⟩ := m.left_eq_adopt
  rw [left]
  exact m.step.set_changes m.prior

theorem left_id (m : Moment) : m.left.id = m.prior.id := by
  obtain ⟨record, left⟩ := m.left_eq_adopt
  rw [left]
  exact m.step.set_id m.prior

end Moment

theorem Service.route_state (s : Service) (id line : String) :
    (s.route id line).1 =
      match Step.ofLine? id line with
      | none => s
      | some step => (s.perform step).1 := by
  unfold Step.ofLine?
  cases family : LineFamily.ofLine line with
  | config =>
    rw [route_of_config family]
    cases read : ConfigCommand.read line with
    | error e => rw [handleConfig_of_unread read]; rfl
    | ok c => rw [handleConfig_of_read read]; rfl
  | query =>
    rw [route_of_query family]
    cases read : ShowCommand.read line with
    | error e => rw [handleShow_of_unread read]; rfl
    | ok c => rw [handleShow_of_read read]; rfl
  | empty | ping | unknown =>
    have not_config : LineFamily.ofLine line ≠ .config := by simp [family]
    have not_query : LineFamily.ofLine line ≠ .query := by simp [family]
    obtain ⟨answer, idle⟩ := route_of_neither id not_config not_query
    rw [idle]

/-- How far a line for the device `id` reaches where it leads from `s` to `t`. -/
structure Service.LineFrame (s t : Service) (id line : String) : Prop where
  others : ∀ other ≠ id, t.devices[other]? = s.devices[other]?
  known : ∀ other, other ∈ t.devices ↔
    other ∈ s.devices ∨ other = id ∧ (Step.ofLine? id line).isSome
  kept : ∀ domain ∈ s.registry.records, domain ∈ t.registry.records
  written : ∀ domain ≠ (t.device id).domain,
    t.registry.records[domain]? = s.registry.records[domain]?
  shown : (∀ c, Step.ofLine? id line ≠ some (.config id c)) →
    t.registry = s.registry ∧ (∃ record, t.device id = (s.device id).adopt record) ∧
      ((s.device id).mode ≠ .client → t.device id = s.device id)
  mode : (t.device id).mode ≠ (s.device id).mode →
    ∃ mode, Step.ofLine? id line = some (.config id (.setMode mode))
  domain : (t.device id).domain ≠ (s.device id).domain →
    ∃ domain, Step.ofLine? id line = some (.config id (.setDomain domain))
  password : (t.device id).password ≠ (s.device id).password →
    ∃ password, Step.ofLine? id line = some (.config id (.setPassword password))
  pruning : (t.device id).pruning ≠ (s.device id).pruning →
    ∃ c ∈ [.enablePruning, .disablePruning], Step.ofLine? id line = some (.config id c)
  spelt : ∀ c, Step.ofLine? id line = some (.config id c) →
    c.keywords <+: (Text.words line).map Text.lower
  name : (t.device id).id = (s.device id).id

namespace Step

variable {id line : String}

theorem device_of_ofLine? {step : Step} (h : ofLine? id line = some step) : step.device = id := by
  unfold ofLine? at h
  split at h
  · obtain ⟨c, _, rfl⟩ := Option.map_eq_some_iff.mp h
    rfl
  · obtain ⟨c, _, rfl⟩ := Option.map_eq_some_iff.mp h
    rfl
  all_goals cases h

theorem keywords_of_ofLine? {c : ConfigCommand} (h : ofLine? id line = some (.config id c)) :
    c.keywords <+: (Text.words line).map Text.lower := by
  unfold ofLine? at h
  split at h
  · cases read : ConfigCommand.read line with
    | error e => simp [read, Except.toOption] at h
    | ok c' =>
      obtain rfl : c' = c := by simpa [read, Except.toOption] using h
      exact ConfigCommand.keywords_of_read read
  · obtain ⟨c, _, h⟩ := Option.map_eq_some_iff.mp h
    cases h
  all_goals cases h

end Step

theorem Service.lineFrame_refl {s : Service} {id line : String}
    (unasked : Step.ofLine? id line = none) : s.LineFrame s id line := by
  have unchanged : ∃ record, s.device id = (s.device id).adopt record :=
    ⟨_, (s.device id).adopt_record.symm⟩
  constructor <;> simp [unasked, unchanged]

theorem Moment.lineFrame {m : Moment} {line : String}
    (asked : Step.ofLine? m.step.device line = some m.step) :
    m.before.LineFrame m.after m.step.device line := by
  obtain ⟨mode, domain, password, pruning⟩ := m.left_changes
  constructor
  case others => exact fun other => m.getElem_after_of_ne
  case known =>
    intro other
    rw [mem_after, asked]
    simp
  case kept =>
    intro domain known
    rcases m.registry_after with same | ⟨_, written⟩
    · rwa [same]
    · rw [written]
      exact Std.ExtTreeMap.mem_insert.mpr (.inr known)
  case written =>
    intro domain elsewhere
    rcases m.registry_after with same | ⟨_, written⟩
    · rw [same]
    · rw [written, Std.ExtTreeMap.getElem?_insert]
      simp [left, Ne.symm elsewhere]
  case shown =>
    intro configures_nothing
    apply m.after_of_query
    simpa [asked] using configures_nothing
  case mode => exact fun changed => by simpa [asked] using mode changed
  case domain => exact fun changed => by simpa [asked] using domain changed
  case password => exact fun changed => by simpa [asked] using password changed
  case pruning => exact fun changed => by simpa [asked] using pruning changed
  case spelt => exact fun c => Step.keywords_of_ofLine?
  case name => exact m.left_id

/-- A line leaves all that it is not about alone. -/
theorem route_frame (s : Service) (id line : String) :
    s.LineFrame (s.route id line).1 id line := by
  rw [Service.route_state]
  cases asked : Step.ofLine? id line with
  | none => exact Service.lineFrame_refl asked
  | some step =>
    obtain rfl := Step.device_of_ofLine? asked
    exact Moment.lineFrame (m := ⟨s, step⟩) asked

theorem route_frame_excursion :
    let s := (Service.run {} excursion).1
    let shown := (s.route "C1" " Show VLAN brief").1
    let moved := (s.route "S1" "vtp domain plant").1
    shown.registry = s.registry ∧ (shown.device "C1").vlans ≠ (s.device "C1").vlans ∧
      (shown.device "C1").domain = (s.device "C1").domain ∧
      moved.devices["C1"]? = s.devices["C1"]? ∧ moved.registry ≠ s.registry ∧
      moved.registry.records["lab"]? = s.registry.records["lab"]? ∧
      "S2" ∉ (s.route "S2" "vlan 20-10").1.devices ∧
      "S2" ∈ (s.route "S2" "vlan 10-20").1.devices := by
  intro s shown moved
  have show_frame : s.LineFrame shown "C1" " Show VLAN brief" := route_frame s "C1" _
  have move_frame : s.LineFrame moved "S1" "vtp domain plant" := route_frame s "S1" _
  have unread := (route_frame s "S2" "vlan 20-10").known "S2"
  have read := (route_frame s "S2" "vlan 10-20").known "S2"
  have query : Step.ofLine? "C1" " Show VLAN brief" = some (.query "C1" .vlans) := by decide
  obtain ⟨registry, ⟨record, caught_up⟩, -⟩ := show_frame.shown (by simp [query])
  refine ⟨registry, by decide, by rw [caught_up, Device.adopt_domain], ?_, by decide, ?_, ?_, ?_⟩
  · exact move_frame.others "C1" (by decide)
  · exact move_frame.written "lab" (by decide)
  · rw [unread]
    decide
  · rw [read]
    exact .inr ⟨rfl, by decide⟩

end VlanTrunking
