import Mathlib.Data.List.Forall2
import VlanTrunking.Proofs.Routing
import VlanTrunking.Proofs.Transition
import VlanTrunking.Proofs.Words

/-! What becomes visible of a password. Two runs are compared that set different passwords at the
same places: whatever is asked later, and of whichever device, the answers are the same, and the
services differ in nothing but the values of the passwords. -/
namespace VlanTrunking

/-- The same device but for the value of its password; whether it has one is the same too. -/
inductive Device.AlikeButPassword (d : Device) : Device → Prop
  | withPassword (password : Option String) (known : password.isSome = d.password.isSome) :
      AlikeButPassword d { d with password }

structure Edit.AlikeButPassword (e f : Edit) : Prop where
  device : e.device.AlikeButPassword f.device
  occasion : f.occasion = e.occasion
  reply {a b : Device} : a.AlikeButPassword b → f.reply b = e.reply a

inductive Step.AlikeButPassword : Step → Step → Prop
  | same (step : Step) : AlikeButPassword step step
  | passwords (id p q : String) :
      AlikeButPassword (.config id (.setPassword p)) (.config id (.setPassword q))

structure Service.AlikeButPasswords (s t : Service) : Prop where
  registry : t.registry = s.registry
  devices (id : String) : Option.Rel Device.AlikeButPassword s.devices[id]? t.devices[id]?

namespace Device

variable {d e : Device}

theorem AlikeButPassword.refl (d : Device) : d.AlikeButPassword d := .withPassword d.password rfl

theorem AlikeButPassword.setPassword (alike : d.AlikeButPassword e) (p q : String) :
    (d.setPassword p).AlikeButPassword (e.setPassword q) := by
  cases alike
  exact .withPassword (some q) rfl

theorem AlikeButPassword.setDomain (alike : d.AlikeButPassword e) (domain : String) :
    (d.setDomain domain).AlikeButPassword (e.setDomain domain) := by
  cases alike with | withPassword password known
  unfold Device.setDomain
  dsimp only
  split
  · exact .withPassword password known
  · exact .withPassword password known

theorem AlikeButPassword.countEdit (alike : d.AlikeButPassword e) :
    d.countEdit.AlikeButPassword e.countEdit := by
  cases alike with | withPassword password known
  unfold Device.countEdit
  dsimp only
  split
  · exact .withPassword password known
  · exact .withPassword password known

theorem AlikeButPassword.passwordText (alike : d.AlikeButPassword e) :
    e.passwordText = d.passwordText := by
  cases alike with | withPassword password known
  rw [Device.passwordText, Device.passwordText, known]

theorem defineVlans_eq_map (d : Device) (ids : List VlanId) (name : Option String) :
    d.defineVlans ids name = (d.vlans.define ids name).map fun vlans => { d with vlans } := by
  unfold defineVlans
  cases d.vlans.define ids name <;> rfl

theorem setVlanKind_eq_map (d : Device) (id : VlanId) (kind : VlanKind) :
    d.setVlanKind id kind = (d.vlans.setKind id kind).map fun vlans => { d with vlans } := by
  unfold setVlanKind
  cases d.vlans.setKind id kind <;> rfl

end Device

theorem Edit.ofVlans_alike {d e : Device} (alike : d.AlikeButPassword e)
    (edited : Except CommandError VlanDatabase) (text : String) :
    (ofVlans d (edited.map fun vlans => { d with vlans }) text).AlikeButPassword
      (ofVlans e (edited.map fun vlans => { e with vlans }) text) := by
  cases alike with | withPassword password known
  have allowed : ConfigCommand.requireEditable { d with password } =
      ConfigCommand.requireEditable d := rfl
  unfold ofVlans
  rw [allowed]
  cases ConfigCommand.requireEditable d with
  | error fault => exact ⟨.withPassword password known, rfl, fun _ => rfl⟩
  | ok _ =>
    cases edited with
    | error fault => exact ⟨.withPassword password known, rfl, fun _ => rfl⟩
    | ok vlans =>
      have changed : Device.AlikeButPassword { d with vlans } { d with vlans, password } :=
        .withPassword password known
      exact ⟨changed.countEdit, rfl, fun _ => rfl⟩

namespace ConfigCommand

theorem edit_removeVlans (d : Device) (ids : List VlanId) :
    (removeVlans ids).edit d =
      let (removed, vlans) := d.vlans.remove ids
      if removed.isEmpty then
        .unsynchronized d ((requireEditable d).map fun _ => "No matching VLANs to remove")
      else .ofVlans d (.ok { d with vlans }) ("VLAN " ++ IdList.write removed ++ " removed") := rfl

theorem edit_alike {d e : Device} (alike : d.AlikeButPassword e) (c : ConfigCommand) :
    (c.edit d).AlikeButPassword (c.edit e) := by
  cases c with
  | setMode | enablePruning | disablePruning =>
    cases alike with | withPassword password known
    exact ⟨.withPassword password known, rfl, fun _ => rfl⟩
  | setDomain domain =>
    refine ⟨alike.setDomain domain, rfl, fun after => ?_⟩
    cases alike
    cases after
    rfl
  | setPassword p => exact ⟨alike.setPassword p p, rfl, fun _ => rfl⟩
  | defineVlans ids name =>
    have stage := Edit.ofVlans_alike alike (d.vlans.define ids name)
    cases alike
    simp only [edit, Device.defineVlans_eq_map]
    exact stage _
  | removeVlans ids =>
    have stage := Edit.ofVlans_alike alike (.ok (d.vlans.remove ids).2)
    cases alike with | withPassword password known
    rw [edit_removeVlans, edit_removeVlans]
    dsimp only
    split
    · exact ⟨.withPassword password known, rfl, fun _ => rfl⟩
    · exact stage _
  | setPrivateVlan id kind =>
    have stage := Edit.ofVlans_alike alike (d.vlans.setKind id kind)
    cases alike
    simp only [edit, Device.setVlanKind_eq_map]
    exact stage _

end ConfigCommand

theorem ShowCommand.edit_alike {d e : Device} (alike : d.AlikeButPassword e) (c : ShowCommand) :
    (c.edit d).AlikeButPassword (c.edit e) := by
  cases c with
  | status => exact ⟨alike, rfl, fun after => by cases after; rfl⟩
  | password => exact ⟨alike, rfl, fun _ => congrArg Except.ok alike.passwordText⟩
  | vlans => exact ⟨alike, rfl, fun after => by cases after; rfl⟩

theorem Step.edit_alike {step step' : Step} (steps : step.AlikeButPassword step') {d e : Device}
    (alike : d.AlikeButPassword e) : (step.edit d).AlikeButPassword (step'.edit e) := by
  cases steps with
  | same =>
    cases step with
    | config id c => exact c.edit_alike alike
    | query id c => exact c.edit_alike alike
  | passwords id p q => exact ⟨alike.setPassword p q, rfl, fun _ => rfl⟩

theorem Step.AlikeButPassword.device {step step' : Step} (steps : step.AlikeButPassword step') :
    step'.device = step.device := by
  cases steps <;> rfl

namespace Registry

theorem synchronize_alike (r : Registry) {d e : Device} (alike : d.AlikeButPassword e)
    (t : Trigger) :
    (r.synchronize e t).1 = (r.synchronize d t).1 ∧
      (r.synchronize d t).2.AlikeButPassword (r.synchronize e t).2 := by
  cases alike with | withPassword password known
  unfold synchronize
  dsimp only
  cases d.mode.action t with
  | publish => exact ⟨rfl, .withPassword password known⟩
  | none => exact ⟨rfl, .withPassword password known⟩
  | pull =>
    refine ⟨rfl, ?_⟩
    unfold pull
    dsimp only
    split
    · cases r.lookup d.domain with
      | none => exact .withPassword password known
      | some record => exact .withPassword password known
    · exact .withPassword password known

theorem settle_alike (r : Registry) {e f : Edit} (alike : e.AlikeButPassword f) :
    (r.settle f).1 = (r.settle e).1 ∧ (r.settle e).2.AlikeButPassword (r.settle f).2 := by
  unfold settle
  rw [alike.occasion]
  cases e.occasion with
  | none => exact ⟨rfl, alike.device⟩
  | some t => exact r.synchronize_alike alike.device t

end Registry

namespace Service

variable {s t : Service}

theorem AlikeButPasswords.refl (s : Service) : s.AlikeButPasswords s := by
  refine ⟨rfl, fun id => ?_⟩
  cases s.devices[id]? with
  | none => exact .none
  | some d => exact .some (.refl d)

theorem AlikeButPasswords.device (alike : s.AlikeButPasswords t) (id : String) :
    (s.device id).AlikeButPassword (t.device id) := by
  rw [device_eq_getElem, device_eq_getElem]
  have same := alike.devices id
  generalize s.devices[id]? = known, t.devices[id]? = known' at same
  cases same with
  | none => exact .refl _
  | some same => exact same

theorem perform_alike (alike : s.AlikeButPasswords t) {step step' : Step}
    (steps : step.AlikeButPassword step') :
    (s.perform step).1.AlikeButPasswords (t.perform step').1 ∧
      (t.perform step').2 = (s.perform step).2 := by
  have stages := Step.edit_alike steps (alike.device step.device)
  obtain ⟨registry, after⟩ := s.registry.settle_alike stages
  rw [perform_eq, perform_eq, steps.device, alike.registry]
  refine ⟨⟨registry, fun id => ?_⟩, stages.reply after⟩
  rcases eq_or_ne id step.device with rfl | other
  · rw [getElem_store_self, getElem_store_self]
    exact .some after
  · rw [getElem_store_of_ne _ _ other, getElem_store_of_ne _ _ other]
    exact alike.devices id

end Service

def SetsPassword (line : String) : Prop :=
  LineFamily.ofLine line = .config ∧ ∃ p, ConfigCommand.read line = .ok (.setPassword p)

theorem Service.route_setsPassword {line : String} (sets : SetsPassword line) (id : String) :
    ∃ p, ∀ s : Service, s.route id line =
      ((s.perform (.config id (.setPassword p))).1,
        .reply (shownOutcome (s.perform (.config id (.setPassword p))).2)) := by
  obtain ⟨config, p, read⟩ := sets
  refine ⟨p, fun s => ?_⟩
  rw [route_of_config config, handleConfig_of_read read]

def SameButPassword (line line' : String) : Prop :=
  line' = line ∨ SetsPassword line ∧ SetsPassword line'

namespace Service

variable {s t : Service}

theorem route_alike (alike : s.AlikeButPasswords t) (id : String) {line line' : String}
    (lines : SameButPassword line line') :
    (s.route id line).1.AlikeButPasswords (t.route id line').1 ∧
      (t.route id line').2 = (s.route id line).2 := by
  rcases lines with rfl | ⟨sets, sets'⟩
  · rcases route_cases id line' with ⟨answer, idle⟩ | ⟨step, -, stepped⟩
    · rw [idle, idle]
      exact ⟨alike, rfl⟩
    · obtain ⟨after, outcome⟩ := perform_alike alike (.same step)
      rw [stepped, stepped, outcome]
      exact ⟨after, rfl⟩
  · obtain ⟨p, stepped⟩ := route_setsPassword sets id
    obtain ⟨q, stepped'⟩ := route_setsPassword sets' id
    obtain ⟨after, outcome⟩ := perform_alike alike (.passwords id p q)
    rw [stepped, stepped', outcome]
    exact ⟨after, rfl⟩

def converse (s : Service) : List (String × String) → Service × List Routed
  | [] => (s, [])
  | (id, line) :: rest =>
    let (s, answer) := s.route id line
    let (s, answers) := s.converse rest
    (s, answer :: answers)

theorem converse_cons (s : Service) (id line : String) (rest : List (String × String)) :
    s.converse ((id, line) :: rest) =
      (((s.route id line).1.converse rest).1,
        (s.route id line).2 :: ((s.route id line).1.converse rest).2) := by
  rw [converse]

theorem converse_alike (alike : s.AlikeButPasswords t) {lines lines' : List (String × String)}
    (same : List.Forall₂ (fun a b => b.1 = a.1 ∧ SameButPassword a.2 b.2) lines lines') :
    (s.converse lines).1.AlikeButPasswords (t.converse lines').1 ∧
      (t.converse lines').2 = (s.converse lines).2 := by
  induction same generalizing s t with
  | nil => exact ⟨alike, rfl⟩
  | @cons a b _ _ first _ ih =>
    obtain ⟨id, line⟩ := a
    obtain ⟨id', line'⟩ := b
    obtain ⟨rfl, lines⟩ := first
    obtain ⟨after, answer⟩ := route_alike alike id' lines
    obtain ⟨later, answers⟩ := ih after
    rw [converse_cons, converse_cons, answer, answers]
    exact ⟨later, rfl⟩

end Service

/-- Two conversations over the same devices that differ only in the passwords they set get the same
answers, and after any number of lines the registries are the same, and the same devices are known
and are alike but for the values of their passwords. -/
theorem passwords_never_show {lines lines' : List (String × String)}
    (same : List.Forall₂ (fun a b => b.1 = a.1 ∧ SameButPassword a.2 b.2) lines lines')
    (s : Service) :
    (s.converse lines').2 = (s.converse lines).2 ∧
      ∀ n, (s.converse (lines.take n)).1.AlikeButPasswords (s.converse (lines'.take n)).1 := by
  refine ⟨(Service.converse_alike (.refl s) same).2, fun n => ?_⟩
  exact (Service.converse_alike (.refl s) (List.forall₂_take n same)).1

def conversation (passwordLine : String) : List (String × String) :=
  [("S1", "vtp domain lab"), ("S1", passwordLine), ("S1", "show vtp password"), ("S1", "vlan 10"),
    ("C1", "vtp mode client"), ("C1", "vtp domain lab"), ("C1", "show vtp status")]

theorem passwords_never_show_conversation :
    let lines := conversation "vtp password s3cret"
    let lines' := conversation "VTP Password  open sesame"
    let s := (Service.converse {} lines).1
    let s' := (Service.converse {} lines').1
    (Service.converse {} lines').2 = (Service.converse {} lines).2 ∧ s.AlikeButPasswords s' ∧
      (s.device "S1").password = some "s3cret" ∧
      (s'.device "S1").password = some "open sesame" := by
  intro lines lines' s s'
  have sets : SetsPassword "vtp password s3cret" := ⟨by decide, "s3cret", by decide⟩
  have sets' : SetsPassword "VTP Password  open sesame" := ⟨by decide, "open sesame", by decide⟩
  have same : List.Forall₂ (fun a b => b.1 = a.1 ∧ SameButPassword a.2 b.2) lines lines' :=
    .cons ⟨rfl, .inl rfl⟩ <| .cons ⟨rfl, .inr ⟨sets, sets'⟩⟩ <| .cons ⟨rfl, .inl rfl⟩ <|
      .cons ⟨rfl, .inl rfl⟩ <| .cons ⟨rfl, .inl rfl⟩ <| .cons ⟨rfl, .inl rfl⟩ <|
      .cons ⟨rfl, .inl rfl⟩ .nil
  obtain ⟨answers, alike⟩ := passwords_never_show same {}
  exact ⟨answers, alike 7, by decide, by decide⟩

end VlanTrunking
