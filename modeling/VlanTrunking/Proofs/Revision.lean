import Mathlib.Data.List.DropRight
import VlanTrunking.Proofs.History

/-! What a revision counts. A step moves the revision of its device in one of two ways: a change of
the domain name sets it back, and an edit made by a server raises it by one. As long as a device
follows nobody there is no third way, so its revision is the number of edits that it made as a
server since it last changed its domain. -/
namespace VlanTrunking

namespace ConfigCommand

def IsEdit : ConfigCommand → Prop
  | defineVlans _ _ | removeVlans _ | setPrivateVlan _ _ => True
  | setMode _ | setDomain _ | setPassword _ | enablePruning | disablePruning => False

def EditsVlans (d : Device) : ConfigCommand → Prop
  | defineVlans _ _ | setPrivateVlan _ _ => True
  | removeVlans ids => ∃ id ∈ ids, id ∈ d.vlans
  | setMode _ | setDomain _ | setPassword _ | enablePruning | disablePruning => False

instance (d : Device) (c : ConfigCommand) : Decidable (c.EditsVlans d) :=
  match c with
  | defineVlans _ _ | setPrivateVlan _ _ => .isTrue trivial
  | removeVlans ids => inferInstanceAs (Decidable (∃ id ∈ ids, id ∈ d.vlans))
  | setMode _ | setDomain _ | setPassword _ | enablePruning | disablePruning => .isFalse id

end ConfigCommand

namespace Step

def IsEdit : Step → Prop
  | .config _ c => c.IsEdit
  | .query _ _ => False

def EditsVlans (d : Device) : Step → Prop
  | .config _ c => c.EditsVlans d
  | .query _ _ => False

instance (d : Device) (step : Step) : Decidable (step.EditsVlans d) :=
  match step with
  | .config _ c => inferInstanceAs (Decidable (c.EditsVlans d))
  | .query _ _ => .isFalse id

end Step

namespace Moment

def Relocates (m : Moment) (id : String) : Prop :=
  m.step.device = id ∧ m.left.domain ≠ m.prior.domain

def CountsFor (m : Moment) (id : String) : Prop :=
  m.step.device = id ∧ m.step.EditsVlans m.prior ∧ m.reply.isOk ∧ m.prior.mode = .server

/-- An edit that is refused, removes nothing or is not the edit of a server, or a domain that is set
to the name it has. -/
def Idle (m : Moment) : Prop :=
  (m.step.IsEdit ∧
    (¬m.step.EditsVlans m.prior ∨ m.reply.isOk = false ∨ m.prior.mode ≠ .server)) ∨
  m.step = .config m.step.device (.setDomain m.prior.domain)

instance (m : Moment) (id : String) : Decidable (m.Relocates id) :=
  inferInstanceAs (Decidable (_ ∧ _))

instance (m : Moment) (id : String) : Decidable (m.CountsFor id) :=
  inferInstanceAs (Decidable (_ ∧ _))

end Moment

/-- The edits that count for a device after its last change of domain, or from the start if there is
none. -/
def editsSinceRelocation (id : String) (moments : List Moment) : Nat :=
  (moments.rtakeWhile fun m => ¬m.Relocates id).countP fun m => m.CountsFor id

theorem editsSinceRelocation_concat (id : String) (moments : List Moment) (m : Moment) :
    editsSinceRelocation id (moments ++ [m]) =
      if m.Relocates id then 0
      else if m.CountsFor id then editsSinceRelocation id moments + 1
      else editsSinceRelocation id moments := by
  unfold editsSinceRelocation
  rw [List.rtakeWhile_concat]
  by_cases away : m.Relocates id
  · simp [away]
  · by_cases counts : m.CountsFor id <;> simp [away, counts]

namespace Device

theorem countEdit_revision (d : Device) :
    d.countEdit.revision =
      if d.mode = .server then min (d.revision + 1) lastRevision else d.revision := by
  unfold countEdit bumpRevision
  cases d.mode <;> rfl

@[simp] theorem countEdit_domain (d : Device) : d.countEdit.domain = d.domain := by
  unfold countEdit
  split <;> rfl

end Device

namespace ConfigCommand

theorem edit_of_isEdit {c : ConfigCommand} (asks : c.IsEdit) (d : Device) :
    (c.EditsVlans d ∧ ∃ vlans text,
      c.edit d = ⟨Device.countEdit { d with vlans }, some .vlanEdited, fun _ => .ok text⟩) ∨
    ∃ reply, c.edit d = .unsynchronized d reply ∧ ¬(c.EditsVlans d ∧ reply.isOk) := by
  cases c with
  | setMode | setDomain | setPassword | enablePruning | disablePruning => cases asks
  | defineVlans ids name =>
    rcases Edit.ofVlans_cases d (d.defineVlans ids name) _ with ⟨_, e, accepted, h⟩ | ⟨e, h⟩
    · obtain ⟨vlans, _, rfl⟩ := Device.of_defineVlans accepted
      exact .inl ⟨trivial, vlans, _, h⟩
    · exact .inr ⟨.error e, h, fun both => Bool.false_ne_true both.2⟩
  | removeVlans ids =>
    have removed := VlanDatabase.remove_isEmpty d.vlans ids
    simp only [edit]
    split
    · next none_there =>
      have nothing : ¬EditsVlans d (removeVlans ids) := by
        simpa [EditsVlans] using removed.mp none_there
      exact .inr ⟨_, rfl, fun both => nothing both.1⟩
    · next some_there =>
      have something : EditsVlans d (removeVlans ids) := by
        simpa [EditsVlans] using mt removed.mpr some_there
      rcases Edit.ofVlans_cases d (.ok (d.removeVlans ids).2) _ with ⟨_, e, accepted, h⟩ | ⟨e, h⟩
      · cases accepted
        exact .inl ⟨something, _, _, h⟩
      · exact .inr ⟨.error e, h, fun both => Bool.false_ne_true both.2⟩
  | setPrivateVlan id kind =>
    rcases Edit.ofVlans_cases d (d.setVlanKind id kind) _ with ⟨_, e, accepted, h⟩ | ⟨e, h⟩
    · obtain ⟨vlans, _, rfl⟩ := Device.of_setVlanKind accepted
      exact .inl ⟨trivial, vlans, _, h⟩
    · exact .inr ⟨.error e, h, fun both => Bool.false_ne_true both.2⟩

theorem isEdit_of_editsVlans {c : ConfigCommand} {d : Device} (edits : c.EditsVlans d) :
    c.IsEdit := by
  cases c with
  | defineVlans | removeVlans | setPrivateVlan => trivial
  | setMode | setDomain | setPassword | enablePruning | disablePruning => cases edits

theorem edit_domain {c : ConfigCommand} {d : Device}
    (stays : ∀ name, c = setDomain name → d.domain = name) :
    (c.edit d).device.domain = d.domain := by
  by_cases asks : c.IsEdit
  · rcases edit_of_isEdit asks d with ⟨_, vlans, text, h⟩ | ⟨reply, h, _⟩
    · rw [h, Device.countEdit_domain]
    · rw [h, Edit.unsynchronized]
  · cases c with
    | defineVlans | removeVlans | setPrivateVlan => exact absurd trivial asks
    | setMode | setPassword | enablePruning | disablePruning => rfl
    | setDomain name => simp [edit, Device.setDomain, stays name rfl]

theorem edit_revision (c : ConfigCommand) (d after : Device) :
    (c.edit d).device.revision =
      if (c.edit d).device.domain ≠ d.domain then 0
      else if c.EditsVlans d ∧ ((c.edit d).reply after).isOk ∧ d.mode = .server then
        min (d.revision + 1) lastRevision
      else d.revision := by
  by_cases asks : c.IsEdit
  · rcases edit_of_isEdit asks d with ⟨edits, vlans, text, h⟩ | ⟨reply, h, idle⟩
    · rw [h]
      simp [Device.countEdit_revision, edits, Except.isOk, Except.toBool]
    · have uncounted : ¬(c.EditsVlans d ∧ reply.isOk ∧ d.mode = .server) :=
        fun ⟨edits, accepted, _⟩ => idle ⟨edits, accepted⟩
      rw [h]
      simp only [Edit.unsynchronized, ne_eq, not_true_eq_false, if_false]
      exact (if_neg uncounted).symm
  · have unedited : ¬c.EditsVlans d := fun edits => asks (isEdit_of_editsVlans edits)
    cases c with
    | defineVlans | removeVlans | setPrivateVlan => exact absurd trivial asks
    | setMode | setPassword | enablePruning | disablePruning =>
      simp [edit, unedited, Edit.unsynchronized, Device.setMode, Device.setPassword,
        Device.setPruning]
    | setDomain domain =>
      by_cases same : d.domain = domain
      · simp [edit, unedited, Device.setDomain, same]
      · simp [edit, Device.setDomain, same, Ne.symm same]

end ConfigCommand

theorem Step.edit_revision (step : Step) (d after : Device) :
    (step.edit d).device.revision =
      if (step.edit d).device.domain ≠ d.domain then 0
      else if step.EditsVlans d ∧ ((step.edit d).reply after).isOk ∧ d.mode = .server then
        min (d.revision + 1) lastRevision
      else d.revision := by
  cases step with
  | config id c => exact c.edit_revision d after
  | query id c => cases c <;> simp [edit, ShowCommand.edit, Edit.unsynchronized, EditsVlans]

namespace Moment

theorem revision_after {m : Moment} {id : String}
    (follows_nobody : m.step.device = id → m.left.mode ≠ .client) :
    (m.after.device id).revision =
      if m.Relocates id then 0
      else if m.CountsFor id then min ((m.before.device id).revision + 1) lastRevision
      else (m.before.device id).revision := by
  by_cases own : m.step.device = id
  · subst own
    have editor : m.edited.device.mode ≠ .client := by
      have free := follows_nobody rfl
      rwa [left_eq_settle, Registry.settle_mode] at free
    have left : m.left = m.edited.device := by
      rw [left_eq_settle, Registry.settle_of_not_client _ editor]
    have revision := m.step.edit_revision m.prior m.left
    rw [← edited, ← left, ← reply_eq] at revision
    change m.left.revision = if m.Relocates _ then 0
      else if m.CountsFor _ then min (m.prior.revision + 1) lastRevision else m.prior.revision
    simpa [Relocates, CountsFor] using revision
  · have untouched : m.after.device id = m.before.device id := by
      rw [after_eq_store, Service.device_store_of_ne _ _ (Ne.symm own)]
    simp [untouched, Relocates, CountsFor, own]

theorem Idle.not_countsFor {m : Moment} {id : String} (idle : m.Idle) : ¬m.CountsFor id := by
  rintro ⟨_, edits, accepted, server⟩
  rcases idle with ⟨_, nothing | refused | other_mode⟩ | same
  · exact nothing edits
  · exact Bool.false_ne_true (refused.symm.trans accepted)
  · exact other_mode server
  · rw [same] at edits
    exact edits

theorem Idle.not_relocates {m : Moment} {id : String} (idle : m.Idle) : ¬m.Relocates id := by
  rintro ⟨_, moved⟩
  apply moved
  rw [left_eq_settle, Registry.settle_domain, edited]
  cases h : m.step with
  | query _ c => cases c <;> rfl
  | config _ c =>
    apply ConfigCommand.edit_domain
    rintro name rfl
    rcases idle with ⟨asks, _⟩ | same
    · rw [h] at asks
      cases asks
    · rw [h] at same
      injection same with _ same
      injection same with same
      exact same.symm

end Moment

namespace Service

theorem run_concat (s : Service) (steps : List Step) (step : Step) :
    (s.run (steps ++ [step])).1 = ((s.run steps).1.perform step).1 := by
  induction steps generalizing s with
  | nil => rfl
  | cons first rest ih => exact ih _

theorem history_concat (s : Service) (steps : List Step) (step : Step) :
    s.history (steps ++ [step]) = s.history steps ++ [⟨(s.run steps).1, step⟩] := by
  induction steps generalizing s with
  | nil => rfl
  | cons first rest ih => exact congrArg (_ :: ·) (ih _)

theorem revision_run {id : String} {steps : List Step}
    (follows_nobody : ∀ m ∈ history {} steps, m.step.device = id → m.left.mode ≠ .client) :
    ((run {} steps).1.device id).revision =
      min (editsSinceRelocation id (history {} steps)) lastRevision := by
  induction steps using List.reverseRecOn with
  | nil => simp [run, history, device, Device.factory, editsSinceRelocation]
  | append_singleton steps step ih =>
    let m : Moment := ⟨(run {} steps).1, step⟩
    rw [history_concat, List.forall_mem_append] at follows_nobody
    have before : (m.before.device id).revision = _ := ih follows_nobody.1
    have after := Moment.revision_after (follows_nobody.2 m (by simp [m]))
    rw [run_concat, history_concat, editsSinceRelocation_concat]
    change (m.after.device id).revision = min (if m.Relocates id then _ else _) _
    rw [after, before]
    split
    · rfl
    · split <;> omega

end Service

/-- A device that is never left a client has as its revision the number of edits that counted for it
since it last changed its domain, up to the greatest revision. Idle steps neither count nor set the
revision back. -/
theorem revision_counts_edits (steps : List Step) (id : String)
    (follows_nobody : ∀ m ∈ Service.history {} steps,
      m.step.device = id → m.left.mode ≠ .client) :
    ((Service.run {} steps).1.device id).revision =
      min (editsSinceRelocation id (Service.history {} steps)) lastRevision ∧
    ∀ m ∈ Service.history {} steps, m.step.device = id → m.Idle →
      ¬m.CountsFor id ∧ ¬m.Relocates id ∧ m.left.revision = m.prior.revision := by
  refine ⟨Service.revision_run follows_nobody, ?_⟩
  rintro m known rfl idle
  have counts : ¬m.CountsFor m.step.device := idle.not_countsFor
  have relocates : ¬m.Relocates m.step.device := idle.not_relocates
  have revision := Moment.revision_after (follows_nobody m known)
  rw [if_neg relocates, if_neg counts] at revision
  exact ⟨counts, relocates, revision⟩

def bookkeeping : List Step :=
  [.config "S1" (.defineVlans [10] none), .config "S1" (.setDomain "lab"),
    .config "S1" (.defineVlans [20, 30] none), .config "S2" (.setDomain "lab"),
    .config "S2" (.defineVlans [40] none), .config "S1" (.removeVlans [40]),
    .config "S1" (.setDomain "lab"), .config "S1" (.setMode .transparent),
    .config "S1" (.removeVlans [20]), .config "S1" (.setMode .server),
    .config "S1" (.setPrivateVlan 30 .isolated), .config "S1" (.removeVlans [40, 10])]

theorem revision_counts_edits_bookkeeping :
    let moments := Service.history {} bookkeeping
    editsSinceRelocation "S1" moments = 3 ∧
      ((Service.run {} bookkeeping).1.device "S1").revision = 3 ∧
      let away : Moment :=
        ⟨(Service.run {} (bookkeeping.take 8)).1, .config "S1" (.removeVlans [20])⟩
      away ∈ moments ∧ ¬away.CountsFor "S1" ∧ away.left.revision = 1 := by
  intro moments
  have counted : editsSinceRelocation "S1" moments = 3 := by decide
  obtain ⟨revision, idle⟩ := revision_counts_edits bookkeeping "S1" (by decide)
  refine ⟨counted, ?_, ?_⟩
  · rw [revision, counted]
    rfl
  · intro away
    have known : away ∈ moments := by decide
    have transparent : away.prior.mode ≠ .server := by decide
    obtain ⟨counts, -, kept⟩ := idle away known rfl (.inl ⟨trivial, .inr (.inr transparent)⟩)
    refine ⟨known, counts, ?_⟩
    rw [kept]
    decide

end VlanTrunking
