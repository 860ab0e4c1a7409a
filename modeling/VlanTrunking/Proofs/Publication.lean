import VlanTrunking.Proofs.Transition

/-! The steps of a run that publish, seen from outside: by the command, its reply and the state in
which it leaves its device. They are exactly the steps that write a record, and each of them writes
what its device then holds. -/
namespace VlanTrunking

/-- Commands that, once accepted, may give the domain of a device something new to know. -/
def ConfigCommand.Announces (d : Device) : ConfigCommand → Prop
  | setMode _ | setDomain _ | defineVlans _ _ | setPrivateVlan _ _ => True
  | removeVlans ids => ∃ id ∈ ids, id ∈ d.vlans
  | setPassword _ | enablePruning | disablePruning => False

def Step.Announces (d : Device) : Step → Prop
  | .config _ c => c.Announces d
  | .query _ _ => False

instance (d : Device) (step : Step) : Decidable (step.Announces d) :=
  match step with
  | .config _ (.setMode _) | .config _ (.setDomain _) | .config _ (.defineVlans _ _)
  | .config _ (.setPrivateVlan _ _) => .isTrue trivial
  | .config _ (.removeVlans ids) => inferInstanceAs (Decidable (∃ id ∈ ids, id ∈ d.vlans))
  | .config _ (.setPassword _) | .config _ .enablePruning | .config _ .disablePruning
  | .query _ _ => .isFalse id

structure Moment where
  before : Service
  step : Step
  deriving DecidableEq

namespace Moment

def after (m : Moment) : Service := (m.before.perform m.step).1

def reply (m : Moment) : Except CommandError String := (m.before.perform m.step).2

def prior (m : Moment) : Device := m.before.device m.step.device

def left (m : Moment) : Device := m.after.device m.step.device

/-- An accepted announcement publishes if it leaves its device a server of the domain. -/
def PublishesInto (m : Moment) (domain : String) : Prop :=
  m.step.Announces m.prior ∧ m.reply.isOk ∧ m.left.Advertises ∧ m.left.domain = domain

instance (m : Moment) (domain : String) : Decidable (m.PublishesInto domain) :=
  inferInstanceAs (Decidable (_ ∧ _))

end Moment

namespace Device

def standing (d : Device) : Mode × String × DomainRecord := (d.mode, d.domain, d.record)

end Device

theorem Edit.ofVlans_outcome (d : Device) (edited : Except CommandError Device) (text : String) :
    ((∀ after, ((ofVlans d edited text).reply after).isOk) ∧
      ∃ t ∈ (ofVlans d edited text).occasion, t ≠ .statusShown) ∨
    ((∀ after, ((ofVlans d edited text).reply after).isOk = false) ∧
      (ofVlans d edited text).occasion = none ∧
      (ofVlans d edited text).device.standing = d.standing) := by
  rcases ofVlans_cases d edited text with ⟨_, e, _, h⟩ | ⟨e, h⟩
  · rw [h]
    exact .inl ⟨fun _ => rfl, _, rfl, by decide⟩
  · rw [h]
    exact .inr ⟨fun _ => rfl, rfl, rfl⟩

namespace ConfigCommand

theorem edit_cases (c : ConfigCommand) (d : Device) :
    (c.Announces d ∧ (∀ after, ((c.edit d).reply after).isOk) ∧
      ∃ t ∈ (c.edit d).occasion, t ≠ .statusShown) ∨
    ((c.Announces d → ∀ after, ((c.edit d).reply after).isOk = false) ∧
      (c.edit d).occasion = none ∧ (c.edit d).device.standing = d.standing) := by
  cases c with
  | setMode mode => exact .inl ⟨trivial, fun _ => rfl, _, rfl, by decide⟩
  | setDomain domain => exact .inl ⟨trivial, fun _ => rfl, _, rfl, by decide⟩
  | setPassword | enablePruning | disablePruning => exact .inr ⟨False.elim, rfl, rfl⟩
  | defineVlans ids name =>
    rcases Edit.ofVlans_outcome d (d.defineVlans ids name) _ with accepted | ⟨refused, stays⟩
    · exact .inl ⟨trivial, accepted⟩
    · exact .inr ⟨fun _ => refused, stays⟩
  | removeVlans ids =>
    have removed := VlanDatabase.remove_isEmpty d.vlans ids
    simp only [edit]
    split
    · next none_there =>
      have nothing : ¬Announces d (removeVlans ids) := by
        simpa [Announces] using removed.mp none_there
      exact .inr ⟨fun announces => absurd announces nothing, rfl, rfl⟩
    · next some_there =>
      have announces : Announces d (removeVlans ids) := by
        simpa [Announces] using mt removed.mpr some_there
      rcases Edit.ofVlans_outcome d (.ok (d.removeVlans ids).2) _ with accepted | ⟨refused, stays⟩
      · exact .inl ⟨announces, accepted⟩
      · exact .inr ⟨fun _ => refused, stays⟩
  | setPrivateVlan id kind =>
    rcases Edit.ofVlans_outcome d (d.setVlanKind id kind) _ with accepted | ⟨refused, stays⟩
    · exact .inl ⟨trivial, accepted⟩
    · exact .inr ⟨fun _ => refused, stays⟩

end ConfigCommand

namespace Moment

def edited (m : Moment) : Edit := m.step.edit m.prior

theorem after_eq_store (m : Moment) :
    m.after = m.before.store m.step.device (m.before.registry.settle m.edited) :=
  m.before.perform_state m.step

theorem left_eq_settle (m : Moment) : m.left = (m.before.registry.settle m.edited).2 := by
  rw [left, after_eq_store, Service.device_store_self]

theorem reply_eq (m : Moment) : m.reply = m.edited.reply m.left :=
  m.before.perform_reply m.step

theorem edited_cases (m : Moment) :
    (m.step.Announces m.prior ∧ m.reply.isOk ∧ ∃ t ∈ m.edited.occasion, t ≠ .statusShown) ∨
      (¬(m.step.Announces m.prior ∧ m.reply.isOk) ∧
        (∀ t ∈ m.edited.occasion, t = .statusShown) ∧
        m.edited.device.standing = m.prior.standing) := by
  rw [reply_eq]
  obtain ⟨s, step⟩ := m
  cases step with
  | query id c =>
    refine .inr ⟨fun both => both.1, fun t ht => ?_, by cases c <;> rfl⟩
    cases c <;> cases ht <;> rfl
  | config id c =>
    rcases c.edit_cases (s.device id) with ⟨announces, ok, t, ht, ne⟩ | ⟨refused, silent, same⟩
    · exact .inl ⟨announces, ok _, t, ht, ne⟩
    · refine .inr ⟨fun both => ?_, fun t ht => ?_, same⟩
      · exact Bool.false_ne_true ((refused both.1 _).symm.trans both.2)
      · cases silent.symm.trans ht

theorem publishesInto_iff (m : Moment) (domain : String) :
    m.PublishesInto domain ↔ m.edited.Publishes ∧ m.edited.device.domain = domain := by
  have name : m.left.domain = m.edited.device.domain := by
    rw [left_eq_settle, Registry.settle_domain]
  have advertises : m.left.Advertises ↔ m.edited.device.Advertises := by
    rw [left_eq_settle, Registry.settle_advertises]
  rw [PublishesInto, name, advertises]
  constructor
  · rintro ⟨announces, ok, speaks, home⟩
    rcases m.edited_cases with ⟨_, _, t, ht, ne⟩ | ⟨quiet, _⟩
    · exact ⟨⟨t, ht, speaks, ne⟩, home⟩
    · exact absurd ⟨announces, ok⟩ quiet
  · rintro ⟨⟨t, ht, speaks, ne⟩, home⟩
    rcases m.edited_cases with ⟨announces, ok, _⟩ | ⟨_, quiet, _⟩
    · exact ⟨announces, ok, speaks, home⟩
    · exact absurd (quiet t ht) ne

/-- A step writes a record exactly when it publishes, and it writes what its device then holds. -/
theorem lookup_after (m : Moment) (domain : String) :
    m.after.registry.lookup domain =
      if m.PublishesInto domain then some m.left.record else m.before.registry.lookup domain := by
  simp only [publishesInto_iff, left_eq_settle, after_eq_store, Service.store_registry]
  exact m.before.registry.lookup_settle m.edited domain

theorem standing_of_quiet {m : Moment} (advertises : m.left.Advertises)
    (quiet : ¬m.PublishesInto m.left.domain) : m.left.standing = m.prior.standing := by
  have server := Device.not_client_of_server advertises.1
  have unchanged : m.left = m.edited.device := by
    rw [left_eq_settle] at server ⊢
    exact Registry.settle_of_not_client _ (by simpa using server)
  rcases m.edited_cases with ⟨announces, ok, _⟩ | ⟨_, _, same⟩
  · exact absurd ⟨announces, ok, advertises, rfl⟩ quiet
  · rw [unchanged, same]

end Moment

end VlanTrunking
