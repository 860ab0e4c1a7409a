import VlanTrunking.Proofs.Publication

/-! The steps on which a client catches up with its domain, seen from outside: by the command and
the state in which it leaves its device. A client that consults its domain takes over the record if
there is one, and on every other step it stays exactly where it stood. -/
namespace VlanTrunking

def ConfigCommand.Consults : ConfigCommand → Prop
  | setMode _ | setDomain _ => True
  | setPassword _ | enablePruning | disablePruning => False
  | defineVlans _ _ | removeVlans _ | setPrivateVlan _ _ => False

def ShowCommand.Consults : ShowCommand → Prop
  | status | vlans => True
  | password => False

def Step.Consults : Step → Prop
  | .config _ c => c.Consults
  | .query _ c => c.Consults

instance (step : Step) : Decidable step.Consults :=
  match step with
  | .config _ (.setMode _) | .config _ (.setDomain _) | .query _ .status | .query _ .vlans =>
    .isTrue trivial
  | .config _ (.setPassword _) | .config _ .enablePruning | .config _ .disablePruning
  | .config _ (.defineVlans _ _) | .config _ (.removeVlans _) | .config _ (.setPrivateVlan _ _)
  | .query _ .password => .isFalse id

/-- What becomes of a device while it does not consult its domain: it stays in its mode, and a
client does not move at all. -/
structure Device.Unmoved (d e : Device) : Prop where
  mode : e.mode = d.mode
  standing : d.mode = .client → e.standing = d.standing

theorem Device.Unmoved.refl (d : Device) : d.Unmoved d := ⟨rfl, fun _ => rfl⟩

theorem Device.Unmoved.trans {d e f : Device} (first : d.Unmoved e) (second : e.Unmoved f) :
    d.Unmoved f where
  mode := second.mode.trans first.mode
  standing client := (second.standing (first.mode.trans client)).trans (first.standing client)

namespace Edit

def Pulls (e : Edit) : Prop := ∃ t ∈ e.occasion, e.device.PullsOn t

instance (e : Edit) : Decidable e.Pulls :=
  inferInstanceAs (Decidable (∃ t ∈ e.occasion, e.device.PullsOn t))

theorem unsynchronized_aloof {d e : Device} (unmoved : d.Unmoved e)
    (reply : Except CommandError String) :
    (∀ t ∈ (unsynchronized e reply).occasion, t = .vlanEdited) ∧
      d.Unmoved (unsynchronized e reply).device := by
  refine ⟨fun t ht => ?_, unmoved⟩
  cases ht

theorem ofVlans_aloof {d : Device} {edited : Except CommandError Device}
    (keeps : ∀ e, edited = .ok e → e.mode = d.mode) (text : String) :
    (∀ t ∈ (ofVlans d edited text).occasion, t = .vlanEdited) ∧
      d.Unmoved (ofVlans d edited text).device := by
  rcases ofVlans_cases d edited text with ⟨editor, e, accepted, h⟩ | ⟨_, h⟩
  · rw [h]
    refine ⟨fun t ht => (Option.some.inj ht).symm, ?_, fun client => absurd client editor⟩
    rw [Device.countEdit_mode, keeps e accepted]
  · rw [h]
    exact unsynchronized_aloof (.refl d) _

end Edit

namespace ConfigCommand

theorem edit_of_aloof {c : ConfigCommand} (aloof : ¬c.Consults) (d : Device) :
    (∀ t ∈ (c.edit d).occasion, t = .vlanEdited) ∧ d.Unmoved (c.edit d).device := by
  cases c with
  | setMode | setDomain => exact absurd trivial aloof
  | setPassword | enablePruning | disablePruning =>
    apply Edit.unsynchronized_aloof
    exact ⟨rfl, fun _ => rfl⟩
  | defineVlans ids name =>
    apply Edit.ofVlans_aloof
    intro e accepted
    obtain ⟨vlans, _, rfl⟩ := Device.of_defineVlans accepted
    rfl
  | removeVlans ids =>
    simp only [edit]
    split
    · exact Edit.unsynchronized_aloof (.refl d) _
    · apply Edit.ofVlans_aloof
      intro e accepted
      cases accepted
      rfl
  | setPrivateVlan id kind =>
    apply Edit.ofVlans_aloof
    intro e accepted
    obtain ⟨vlans, _, rfl⟩ := Device.of_setVlanKind accepted
    rfl

end ConfigCommand

/-- What a device brings to a consultation: its VLANs as they are, and its revision unless its
domain has changed. -/
def Device.carried (d : Device) (domain : String) : DomainRecord :=
  ⟨if d.domain = domain then d.revision else 0, d.vlans⟩

namespace Step

theorem edit_of_aloof {step : Step} (aloof : ¬step.Consults) (d : Device) :
    (∀ t ∈ (step.edit d).occasion, t = .vlanEdited) ∧ d.Unmoved (step.edit d).device := by
  cases step with
  | config id c => exact c.edit_of_aloof aloof d
  | query id c =>
    cases c with
    | status | vlans => exact absurd trivial aloof
    | password => exact Edit.unsynchronized_aloof (.refl d) _

theorem edit_of_consults {step : Step} (consults : step.Consults) (d : Device) :
    (∃ t ∈ (step.edit d).occasion, t ≠ .vlanEdited) ∧
      (step.edit d).device.record = d.carried (step.edit d).device.domain := by
  match step, consults with
  | .config _ (.setMode mode), _ =>
    refine ⟨⟨_, rfl, by decide⟩, ?_⟩
    simp [edit, ConfigCommand.edit, Device.setMode, Device.carried, Device.record]
  | .config _ (.setDomain domain), _ =>
    refine ⟨⟨_, rfl, by decide⟩, ?_⟩
    by_cases same : d.domain = domain <;>
      simp [edit, ConfigCommand.edit, Device.setDomain, Device.carried, Device.record, same]
  | .query _ .status, _ | .query _ .vlans, _ =>
    exact ⟨⟨_, rfl, by decide⟩, by simp [edit, ShowCommand.edit, Device.carried, Device.record]⟩

end Step

theorem Registry.settle_device (r : Registry) (e : Edit) :
    (r.settle e).2 =
      if e.Pulls then ((r.lookup e.device.domain).map e.device.adopt).getD e.device
      else e.device := by
  obtain ⟨d, _ | t, reply⟩ := e
  · simp [settle, Edit.Pulls]
  · simp [settle, Edit.Pulls, synchronize_device]

namespace Moment

/-- A consultation looks up the domain in which it leaves its device a client. -/
def PullsFrom (m : Moment) (domain : String) : Prop :=
  m.step.Consults ∧ m.left.mode = .client ∧ m.left.domain = domain

instance (m : Moment) (domain : String) : Decidable (m.PullsFrom domain) :=
  inferInstanceAs (Decidable (_ ∧ _))

theorem left_mode (m : Moment) : m.left.mode = m.edited.device.mode := by
  rw [left_eq_settle, Registry.settle_mode]

theorem left_domain (m : Moment) : m.left.domain = m.edited.device.domain := by
  rw [left_eq_settle, Registry.settle_domain]

theorem pullsFrom_iff (m : Moment) (domain : String) :
    m.PullsFrom domain ↔ m.edited.Pulls ∧ m.edited.device.domain = domain := by
  rw [PullsFrom, left_mode, left_domain]
  constructor
  · rintro ⟨consults, client, home⟩
    obtain ⟨⟨t, ht, ne⟩, _⟩ := Step.edit_of_consults consults m.prior
    exact ⟨⟨t, ht, client, ne⟩, home⟩
  · rintro ⟨⟨t, ht, client, ne⟩, home⟩
    have consults : m.step.Consults := Decidable.byContradiction fun aloof =>
      ne ((Step.edit_of_aloof aloof m.prior).1 t ht)
    exact ⟨consults, client, home⟩

/-- A client comes out of a consultation with the record of its domain, and with what it carried
there if the domain has none. -/
theorem left_of_pullsFrom {m : Moment} {domain : String} (pulls : m.PullsFrom domain) :
    m.left.record = (m.before.registry.lookup domain).getD (m.prior.carried domain) := by
  obtain ⟨told, rfl⟩ := (m.pullsFrom_iff domain).mp pulls
  have carried := (Step.edit_of_consults pulls.1 m.prior).2
  rw [left_eq_settle, Registry.settle_device, if_pos told]
  cases m.before.registry.lookup m.edited.device.domain with
  | none => exact carried
  | some record => rfl

theorem unmoved_of_aloof {m : Moment} {id : String}
    (aloof : m.step.device = id → ¬m.step.Consults) :
    (m.before.device id).Unmoved (m.after.device id) := by
  rw [after_eq_store]
  by_cases own : m.step.device = id
  · subst own
    obtain ⟨occasion, unmoved⟩ := Step.edit_of_aloof (aloof rfl) m.prior
    have keeps : ¬m.edited.Pulls := fun ⟨t, ht, _, ne⟩ => ne (occasion t ht)
    rw [Service.device_store_self, Registry.settle_device, if_neg keeps]
    exact unmoved
  · rw [Service.device_store_of_ne _ _ (Ne.symm own)]
    exact .refl _

end Moment

end VlanTrunking
