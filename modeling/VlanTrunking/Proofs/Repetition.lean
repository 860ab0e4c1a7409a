import VlanTrunking.Proofs.Frame
import VlanTrunking.Proofs.Consultation
import VlanTrunking.Proofs.VlanEdits

/-! The same command twice in a row. The second time a command finds its device as the first time
left it, and does nothing but synchronise it again, which changes nothing: a record is written a
second time with the same contents, or taken over a second time. Only an accepted definition or
change of kind on a server counts again, as one more edit of unchanged VLANs. -/
namespace VlanTrunking

namespace ConfigCommand

/-- Commands that count as an edit whenever they are accepted, however little there is to do. -/
def Recounts : ConfigCommand → Prop
  | defineVlans _ _ | setPrivateVlan _ _ => True
  | setMode _ | setDomain _ | setPassword _ | enablePruning | disablePruning | removeVlans _ => False

instance (c : ConfigCommand) : Decidable c.Recounts :=
  match c with
  | defineVlans _ _ | setPrivateVlan _ _ => .isTrue trivial
  | setMode _ | setDomain _ | setPassword _ | enablePruning | disablePruning | removeVlans _ =>
    .isFalse id

end ConfigCommand

def Step.Recounts : Step → Prop
  | .config _ c => c.Recounts
  | .query _ _ => False

instance (step : Step) : Decidable step.Recounts :=
  match step with
  | .config _ c => inferInstanceAs (Decidable c.Recounts)
  | .query _ _ => .isFalse id

def Moment.Recounts (m : Moment) : Prop :=
  m.step.Recounts ∧ m.reply.isOk ∧ m.prior.mode = .server

instance (m : Moment) : Decidable m.Recounts := inferInstanceAs (Decidable (_ ∧ _))

namespace Registry

variable {r : Registry} {e f : Edit}

theorem settle_again (device : f.device = (r.settle e).2)
    (occasion : ∀ t ∈ f.occasion, t ∈ e.occasion) : (r.settle e).1.settle f = r.settle e := by
  have mode : f.device.mode = e.device.mode := by rw [device, settle_mode]
  have domain : f.device.domain = e.device.domain := by rw [device, settle_domain]
  have publishes (h : f.Publishes) : e.Publishes := by
    obtain ⟨t, ht, speaks, ne⟩ := h
    rw [Device.Advertises, mode, domain] at speaks
    exact ⟨t, occasion t ht, speaks, ne⟩
  have pulls (h : f.Pulls) : e.Pulls := by
    obtain ⟨t, ht, client, ne⟩ := h
    exact ⟨t, occasion t ht, mode ▸ client, ne⟩
  apply Prod.ext
  · rw [settle_registry]
    split
    · next h =>
      have server := Device.not_client_of_server (publishes h).advertises.1
      rw [device, settle_of_not_client r server, settle_registry, if_pos (publishes h)]
      dsimp only
      rw [insert_insert]
    · rfl
  · rw [settle_device]
    split
    · next h =>
      have client : e.device.mode = .client := by
        obtain ⟨t, _, client, _⟩ := pulls h
        exact client
      have silent : ¬e.Publishes := fun speaks =>
        Device.not_client_of_server speaks.advertises.1 client
      rw [settle_registry, if_neg silent, domain, device, settle_device, if_pos (pulls h)]
      cases r.lookup e.device.domain <;> rfl
    · exact device

end Registry

namespace Edit

/-- How a command edits the device that its first edit `e` left: it is answered alike, and either
leaves the device alone, with no occasion that it did not have before, or, if it counts, counts as
one more edit. -/
structure Again (counts : Prop) (e f : Edit) (left : Device) : Prop where
  reply : ∀ a b, (f.reply a).isOk = (e.reply b).isOk
  idle : ¬counts → f.device = left ∧ ∀ t ∈ f.occasion, t ∈ e.occasion
  counted : counts → e.occasion = some .vlanEdited ∧ e.device = left ∧ left.mode = .server ∧
    f.device = left.bumpRevision ∧ f.occasion = some .vlanEdited

theorem Again.refl {d : Device} {reply : Except CommandError String} {counts : Prop}
    (idle : ¬counts) : Again counts (unsynchronized d reply) (unsynchronized d reply) d where
  reply _ _ := rfl
  idle _ := ⟨rfl, fun _ ht => ht⟩
  counted h := absurd h idle

theorem ofVlans_of_editable {d : Device} (editor : d.mode ≠ .client) (e : Device) (text : String) :
    ofVlans d (.ok e) text = ⟨e.countEdit, some .vlanEdited, fun _ => .ok text⟩ := by
  unfold ofVlans ConfigCommand.requireEditable
  rw [if_neg editor]

theorem ofVlans_of_client {d : Device} (client : d.mode = .client)
    (edited : Except CommandError Device) (text : String) :
    ofVlans d edited text = .unsynchronized d (.error (.vlanConfigNotAllowed .client)) := by
  unfold ofVlans ConfigCommand.requireEditable
  rw [if_pos client, client]

end Edit

theorem Device.countEdit_of_server {d : Device} (server : d.mode = .server) :
    d.countEdit = d.bumpRevision := by
  rw [countEdit, server]
  rfl

theorem Device.countEdit_of_not_server {d : Device} (other : d.mode ≠ .server) :
    d.countEdit = d := by
  unfold countEdit
  cases mode : d.mode <;> simp_all [Mode.action]

theorem Edit.again_modifyVlans {f : Vlan → Vlan} (settles : ∀ v, f (f v) = f v) (r : Registry)
    (d : Device) (ids : List VlanId) (text : String) :
    let e := ofVlans d (d.modifyVlans ids f) text
    let left := (r.settle e).2
    Again ((e.reply left).isOk ∧ d.mode = .server) e
      (ofVlans left (left.modifyVlans ids f) text) left := by
  rcases ofVlans_cases d (d.modifyVlans ids f) text with ⟨editor, e, accepted, h⟩ | ⟨fault, h⟩
  · have mode : e.countEdit.mode = d.mode := by
      unfold Device.modifyVlans at accepted
      split at accepted <;> cases accepted
      exact Device.countEdit_mode _
    have left : (r.settle (ofVlans d (d.modifyVlans ids f) text)).2 = e.countEdit := by
      rw [h, Registry.settle_of_not_client]
      rwa [mode]
    have again : e.countEdit.modifyVlans ids f = .ok e.countEdit :=
      Device.modifyVlans_again settles accepted e.countEdit_vlans
    dsimp only
    rw [left, again, ofVlans_of_editable (by rwa [mode]), h]
    refine ⟨fun _ _ => rfl, fun idle => ⟨?_, fun _ ht => ht⟩, fun counted => ⟨rfl, rfl, ?_, ?_, rfl⟩⟩
    · apply Device.countEdit_of_not_server
      rw [mode]
      exact fun server => idle ⟨rfl, server⟩
    · rw [mode, counted.2]
    · exact Device.countEdit_of_server (mode.trans counted.2)
  · have left : (r.settle (ofVlans d (d.modifyVlans ids f) text)).2 = d := by rw [h]; rfl
    dsimp only
    rw [left, h]
    exact .refl fun counts => Bool.false_ne_true counts.1

namespace ConfigCommand

variable {c : ConfigCommand} {d : Device} {reply : Except CommandError String} {counts : Prop}

theorem again_of_unchanged (edit : c.edit d = .unsynchronized d reply) (r : Registry)
    (idle : ¬counts) :
    Edit.Again counts (c.edit d) (c.edit (r.settle (c.edit d)).2) (r.settle (c.edit d)).2 := by
  have left : (r.settle (c.edit d)).2 = d := by
    rw [edit]
    rfl
  rw [left, edit]
  exact .refl idle

theorem again_removeVlans (r : Registry) (d : Device) (ids : List VlanId) :
    let e := (removeVlans ids).edit d
    let left := (r.settle e).2
    Edit.Again False e ((removeVlans ids).edit left) left := by
  intro e left
  by_cases none_there : (d.vlans.remove ids).1 = []
  · exact again_of_unchanged (edit_removeVlans_of_none none_there) r id
  have edit : e = _ := edit_removeVlans_of_some none_there
  by_cases client : d.mode = .client
  · rw [Edit.ofVlans_of_client client] at edit
    exact again_of_unchanged edit r id
  rw [Edit.ofVlans_of_editable client] at edit
  have mode : e.device.mode = d.mode := by
    rw [edit]
    exact Device.countEdit_mode _
  have unchanged : left = e.device := Registry.settle_of_not_client r (by rwa [mode])
  have gone : (left.vlans.remove ids).1 = [] := by
    rw [unchanged, edit, Device.countEdit_vlans]
    exact VlanDatabase.remove_remove d.vlans ids
  have allowed : requireEditable left = .ok () := by
    rw [requireEditable, unchanged, mode, if_neg client]
  rw [edit_removeVlans_of_none gone, allowed, edit]
  exact ⟨fun _ _ => rfl, fun _ => ⟨rfl, fun _ ht => nomatch ht⟩, False.elim⟩

/-- A command gets the same kind of answer the second time, and finds nothing more to do unless it
counts anew. -/
theorem edit_again (c : ConfigCommand) (r : Registry) (d : Device) :
    let e := c.edit d
    let left := (r.settle e).2
    Edit.Again (c.Recounts ∧ (e.reply left).isOk ∧ d.mode = .server) e (c.edit left) left := by
  cases c with
  | setPassword | enablePruning | disablePruning =>
    exact ⟨fun _ _ => rfl, fun _ => ⟨rfl, fun _ ht => ht⟩, fun counts => counts.1.elim⟩
  | setMode mode =>
    intro e left
    have same : left.setMode mode = left := by
      have reached : left.mode = mode := Registry.settle_mode r e
      rw [Device.setMode, ← reached]
    exact ⟨fun _ _ => rfl, fun _ => ⟨same, fun _ ht => ht⟩, fun counts => counts.1.elim⟩
  | setDomain domain =>
    intro e left
    have same : left.setDomain domain = left := by
      have reached : left.domain = domain := by
        rw [Registry.settle_domain]
        simp only [e, edit, Device.setDomain]
        split
        · next home => exact home
        · rfl
      rw [Device.setDomain, if_pos reached]
    exact ⟨fun _ _ => rfl, fun _ => ⟨same, fun _ ht => ht⟩, fun counts => counts.1.elim⟩
  | removeVlans ids =>
    intro e left
    have counts : ((removeVlans ids).Recounts ∧ (e.reply left).isOk ∧ d.mode = .server) = False :=
      eq_false fun counts => counts.1
    rw [counts]
    exact again_removeVlans r d ids
  | defineVlans ids name =>
    intro e left
    have counts : ((defineVlans ids name).Recounts ∧ (e.reply left).isOk ∧ d.mode = .server) =
        ((e.reply left).isOk ∧ d.mode = .server) := true_and _
    rw [counts]
    simp only [left, e, edit, Device.defineVlans_eq]
    exact Edit.again_modifyVlans (f := fun v => { v with name := name <|> v.name })
      (Device.renamed_twice name) r d ids _
  | setPrivateVlan id kind =>
    intro e left
    have counts : ((setPrivateVlan id kind).Recounts ∧ (e.reply left).isOk ∧ d.mode = .server) =
        ((e.reply left).isOk ∧ d.mode = .server) := true_and _
    rw [counts]
    simp only [left, e, edit, Device.setVlanKind_eq]
    exact Edit.again_modifyVlans (f := fun v => { v with kind }) (fun _ => rfl) r d [id] _

end ConfigCommand

theorem ShowCommand.edit_again (c : ShowCommand) (r : Registry) (d : Device) :
    let e := c.edit d
    let left := (r.settle e).2
    Edit.Again False e (c.edit left) left := by
  intro e left
  have answered (d a : Device) : ((c.edit d).reply a).isOk = true := by cases c <;> rfl
  have occasion : (c.edit left).occasion = e.occasion := by cases c <;> rfl
  refine ⟨fun a b => ?_, fun _ => ⟨c.edit_device left, fun t ht => ?_⟩, False.elim⟩
  · rw [answered, answered]
  · rwa [← occasion]

theorem Step.edit_again (step : Step) (r : Registry) (d : Device) :
    let e := step.edit d
    let left := (r.settle e).2
    Edit.Again (step.Recounts ∧ (e.reply left).isOk ∧ d.mode = .server) e (step.edit left) left := by
  cases step with
  | config id c => exact c.edit_again r d
  | query id c =>
    intro e left
    have counts : (Recounts (.query id c) ∧ (e.reply left).isOk ∧ d.mode = .server) = False :=
      eq_false fun counts => counts.1
    rw [counts]
    exact c.edit_again r d

namespace Moment

def again (m : Moment) : Moment := ⟨m.after, m.step⟩

theorem edited_again (m : Moment) : Edit.Again m.Recounts m.edited m.again.edited m.left := by
  have again := m.step.edit_again m.before.registry m.prior
  rw [Recounts, reply_eq, left_eq_settle]
  have found : m.again.edited = m.step.edit (m.before.registry.settle m.edited).2 := by
    rw [edited, ← left_eq_settle]
    rfl
  rw [found]
  exact again

theorem after_again (m : Moment) :
    m.again.after = m.before.store m.step.device (m.after.registry.settle m.again.edited) := by
  rw [after_eq_store]
  simp only [again]
  rw [m.after_eq_store, Service.store_store]

theorem after_again_of_idle {m : Moment} (idle : ¬m.Recounts) : m.again.after = m.after := by
  obtain ⟨device, occasion⟩ := m.edited_again.idle idle
  rw [left_eq_settle] at device
  rw [after_again, after_eq_store, Service.store_registry, Registry.settle_again device occasion]

theorem getElem_after_self (m : Moment) : m.after.devices[m.step.device]? = some m.left := by
  rw [left_eq_settle, after_eq_store, Service.getElem_store_self]

theorem left_again_of_recounts {m : Moment} (counts : m.Recounts) :
    m.again.left = m.left.bumpRevision := by
  obtain ⟨-, -, server, device, -⟩ := m.edited_again.counted counts
  have editor : m.again.edited.device.mode ≠ .client := by
    rw [device]
    exact Device.not_client_of_server server
  rw [left_eq_settle, Registry.settle_of_not_client _ editor, device]

theorem publishesInto_of_recounts {m : Moment} (counts : m.Recounts) (domain : String) :
    (m.PublishesInto domain ↔ domain ≠ "" ∧ domain = m.left.domain) ∧
      (m.again.PublishesInto domain ↔ domain ≠ "" ∧ domain = m.left.domain) := by
  obtain ⟨occasion, device, server, device', occasion'⟩ := m.edited_again.counted counts
  have advertises : m.left.Advertises ↔ m.left.domain ≠ "" := and_iff_right server
  have speaks (e : Edit) (told : e.occasion = some .vlanEdited) (mode : e.device.mode = .server)
      (home : e.device.domain = m.left.domain) :
      e.Publishes ∧ e.device.domain = domain ↔ domain ≠ "" ∧ domain = m.left.domain := by
    simp only [Edit.Publishes, told, Option.mem_some_iff, exists_eq_left', Device.PublishesOn,
      Device.Advertises, mode, home]
    constructor
    · rintro ⟨⟨⟨-, named⟩, -⟩, rfl⟩
      exact ⟨named, rfl⟩
    · rintro ⟨named, rfl⟩
      exact ⟨⟨⟨trivial, named⟩, by decide⟩, rfl⟩
  rw [publishesInto_iff, publishesInto_iff]
  exact ⟨speaks _ occasion (device ▸ server) (by rw [device]),
    speaks _ occasion' (by rw [device']; exact server) (by rw [device']; rfl)⟩

theorem lookup_again_of_recounts {m : Moment} (counts : m.Recounts) (domain : String) :
    m.again.after.registry.lookup domain =
      (m.after.registry.lookup domain).map fun record =>
        if domain = m.left.domain then
          { record with revision := min (record.revision + 1) lastRevision }
        else record := by
  obtain ⟨first, again⟩ := publishesInto_of_recounts counts domain
  rw [lookup_after m.again, left_again_of_recounts counts]
  simp only [again]
  by_cases home : domain = m.left.domain
  · by_cases named : domain = ""
    · subst named
      rfl
    · rw [if_pos ⟨named, home⟩, lookup_after, if_pos (first.mpr ⟨named, home⟩), Option.map_some,
        if_pos home]
      rfl
  · simp [home, Moment.again]

theorem getElem_again_of_recounts {m : Moment} (counts : m.Recounts) (id : String) :
    m.again.after.devices[id]? = m.after.devices[id]?.map fun d =>
      if id = m.step.device then d.bumpRevision else d := by
  by_cases own : id = m.step.device
  · subst own
    have after : m.again.after.devices[m.step.device]? = some m.again.left :=
      m.again.getElem_after_self
    rw [after, m.getElem_after_self, left_again_of_recounts counts, Option.map_some, if_pos rfl]
  · rw [getElem_after_of_ne m.again own]
    simp [own, Moment.again]

end Moment

/-- A step that is made twice in a row leaves everything as it was after the first time and is
answered alike, except that a definition or a change of kind that a server accepts counts again: its
device is one revision further on, and so is the record of its domain. -/
theorem repeated_step_is_harmless (s : Service) (step : Step) :
    let first : Moment := ⟨s, step⟩
    let again : Moment := ⟨first.after, step⟩
    again.reply.isOk = first.reply.isOk ∧
    (∀ id, again.after.devices[id]? = first.after.devices[id]?.map fun d =>
      if first.Recounts ∧ id = step.device then d.bumpRevision else d) ∧
    (∀ domain, again.after.registry.lookup domain =
      (first.after.registry.lookup domain).map fun record =>
        if first.Recounts ∧ domain = first.left.domain then
          { record with revision := min (record.revision + 1) lastRevision }
        else record) ∧
    (¬first.Recounts → again.after = first.after) := by
  intro first again
  have alike : again.reply.isOk = first.reply.isOk := by
    rw [Moment.reply_eq, Moment.reply_eq]
    exact first.edited_again.reply _ _
  by_cases counts : first.Recounts
  · simp only [counts, true_and, not_true_eq_false, false_imp_iff, and_true]
    exact ⟨alike, Moment.getElem_again_of_recounts counts, Moment.lookup_again_of_recounts counts⟩
  · have unchanged : again.after = first.after := Moment.after_again_of_idle counts
    refine ⟨alike, fun id => ?_, fun domain => ?_, fun _ => unchanged⟩
    · simp [unchanged, counts]
    · simp [unchanged, counts]

theorem repeated_step_is_harmless_full :
    let s := (Service.run {} excursion).1
    let define : Step := .config "S1" (.defineVlans (List.range' 1 1005) (some "users"))
    let defined : Moment := ⟨s, define⟩
    let defined' : Moment := ⟨defined.after, define⟩
    let remove : Step := .config "S1" (.removeVlans [30, 20])
    let removed : Moment := ⟨s, remove⟩
    defined'.reply.isOk = true ∧
      defined'.after.devices["S1"]? = defined.after.devices["S1"]?.map Device.bumpRevision ∧
      defined'.after.devices["C1"]? = defined.after.devices["C1"]? ∧
      removed.after ≠ s ∧ Moment.after ⟨removed.after, remove⟩ = removed.after := by
  intro s define defined defined' remove removed
  obtain ⟨alike, devices, -, -⟩ := repeated_step_is_harmless s define
  obtain ⟨-, -, -, idle⟩ := repeated_step_is_harmless s remove
  have devices : ∀ id, defined'.after.devices[id]? = defined.after.devices[id]?.map fun d =>
      if defined.Recounts ∧ id = "S1" then d.bumpRevision else d := devices
  have accepted : defined.reply.isOk = true := by decide +kernel
  have counts : defined.Recounts := ⟨trivial, accepted, by decide⟩
  refine ⟨alike.trans accepted, ?_, ?_, by decide, idle fun counts => counts.1⟩
  · rw [devices "S1"]
    simp only [counts, and_self, if_true]
  · rw [devices "C1"]
    simp

end VlanTrunking
