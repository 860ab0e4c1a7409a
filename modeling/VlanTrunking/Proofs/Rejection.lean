import VlanTrunking.Proofs.History
import VlanTrunking.Proofs.InPlace

/-! Commands that are turned down. A line that cannot be read, and one that no handler is asked
about, leave everything as it is; a command that is read and then refused can at most have brought
its device into being, in the factory state. -/
namespace VlanTrunking

namespace Device

def fault (d : Device) : CommandError :=
  if d.mode = .client then .vlanConfigNotAllowed .client else .vlanLimitExceeded

theorem fault_cases (d : Device) :
    d.fault = .vlanConfigNotAllowed .client ∨ d.fault = .vlanLimitExceeded := by
  unfold fault
  split
  · exact .inl rfl
  · exact .inr rfl

end Device

namespace ConfigCommand

variable {r : Registry} {d : Device} {e : CommandError}

theorem fault_of_requireEditable (h : requireEditable d = .error e) : e = d.fault := by
  unfold requireEditable at h
  split at h
  · next client =>
    cases h
    simp [Device.fault, client]
  · cases h

theorem fault_of_full {ids : List VlanId} {f : Vlan → Vlan} (allowed : requireEditable d = .ok ())
    (full : d.modifyVlans ids f = .error e) : e = d.fault := by
  have editor : d.mode ≠ .client := by
    intro client
    simp [requireEditable, client] at allowed
  rw [Device.modifyVlans_error full, Device.fault, if_neg editor]

theorem run_eq_error {c : ConfigCommand} (h : c.run r d = .error e) : e = d.fault := by
  cases c with
  | setMode | setDomain | setPassword | enablePruning | disablePruning => cases h
  | defineVlans ids name =>
    rcases refused_bind.mp h with refused | ⟨_, allowed, h⟩
    · exact fault_of_requireEditable refused
    · rcases refused_bind.mp h with full | ⟨_, _, h⟩
      · rw [Device.defineVlans_eq] at full
        exact fault_of_full allowed full
      · cases h
  | removeVlans ids =>
    rcases refused_bind.mp h with refused | ⟨_, _, h⟩
    · exact fault_of_requireEditable refused
    · dsimp only at h
      split at h <;> cases h
  | setPrivateVlan id kind =>
    rcases refused_bind.mp h with refused | ⟨_, allowed, h⟩
    · exact fault_of_requireEditable refused
    · rcases refused_bind.mp h with full | ⟨_, _, h⟩
      · rw [Device.setVlanKind_eq] at full
        exact fault_of_full allowed full
      · cases h

end ConfigCommand

namespace Service

theorem create_of_known {s : Service} {id : String} (known : id ∈ s.devices) :
    s.create id = s := by
  have there : s.devices[id]? = some (s.device id) := by
    rw [device_eq_getElem, Std.ExtTreeMap.getElem?_eq_some_getElem known, Option.getD_some]
  rw [create, store, insert_known s.devices there]

theorem create_of_unknown {s : Service} {id : String} (unknown : id ∉ s.devices) :
    s.create id = { s with devices := s.devices.insert id (Device.factory id) } := by
  rw [create, store, device_eq_getElem, Std.ExtTreeMap.getElem?_eq_none unknown, Option.getD_none]

theorem InPlace.run_of_refused (s : Service) (id : String) (c : ConfigCommand) {e : CommandError}
    (h : (s.configure id c).2 = .error e) :
    (InPlace.configure id c).run s = .error e (s.configure id c).1 := by
  rw [InPlace.configure_run]
  revert h
  rcases s.configure id c with ⟨t, _ | _⟩ <;> rintro ⟨⟩
  rfl

theorem InPlace.refused_of_run {s t : Service} {id : String} {c : ConfigCommand} {e : CommandError}
    (h : (InPlace.configure id c).run s = .error e t) :
    t = s.create id ∧ e = (s.device id).fault := by
  rw [InPlace.configure_run, Service.configure] at h
  cases ran : c.run s.registry (s.device id) with
  | ok outcome =>
    rw [ran] at h
    cases h
  | error fault =>
    rw [ran] at h
    cases h
    exact ⟨rfl, ConfigCommand.run_eq_error ran⟩

end Service

open Service.InPlace in
/-- A rejection changes nothing, except that a device whose command was refused may have come into
being, and a handler answers it with the message of the error. It is so although the work goes on in
place and nothing that has been done is taken back. -/
theorem rejections_are_atomic (s : Service) (id line : String) :
    (∀ e, ConfigCommand.read line = .error e → (handleConfig id line).run s = .ok e.message s) ∧
    (∀ e, ShowCommand.read line = .error e → (handleShow id line).run s = .ok e.message s) ∧
    (∀ c e t, (configure id c).run s = .error e t →
      (e = .vlanConfigNotAllowed .client ∨ e = .vlanLimitExceeded) ∧
      (id ∈ s.devices → t = s) ∧
      (id ∉ s.devices → t = { s with devices := s.devices.insert id (Device.factory id) }) ∧
      (ConfigCommand.read line = .ok c → (handleConfig id line).run s = .ok e.message t)) ∧
    (∀ e t, (route id line).run s = .ok (.rejected e) t → t = s) ∧
    (∀ target t, (route id line).run s = .ok (.ping target) t → t = s) ∧
    Agrees s id line := by
  refine ⟨fun e unread => ?_, fun e unread => ?_, fun c e t refused => ?_, fun e t rejected => ?_,
    fun target t ping => ?_, agrees s id line⟩
  · rw [handleConfig_run, Service.handleConfig_of_unread unread]
  · rw [handleShow_run, Service.handleShow_of_unread unread]
  · obtain ⟨state, fault⟩ := refused_of_run refused
    refine ⟨?_, fun known => ?_, fun unknown => ?_, fun read => ?_⟩
    · rw [fault]
      exact Device.fault_cases _
    · rw [state, Service.create_of_known known]
    · rw [state, Service.create_of_unknown unknown]
    · rw [handleConfig, read, shown_run, refused]
  · rw [route_run] at rejected
    obtain ⟨answer, rfl⟩ := EStateM.Result.ok.inj rejected
    apply Service.route_of_unanswered
    simp [answer]
  · rw [route_run] at ping
    obtain ⟨answer, rfl⟩ := EStateM.Result.ok.inj ping
    apply Service.route_of_unanswered
    simp [answer]

open Service.InPlace in
theorem rejections_are_atomic_causes :
    let s := (Service.run {} excursion).1
    (handleConfig "C1" "vlan 20-10").run s = .ok "Invalid VLAN list: 20-10" s ∧
    (handleShow "C1" "show vtp").run s = .ok "Unsupported VTP show command" s ∧
    (handleConfig "C1" "vlan 30").run s =
      .ok "VTP VLAN configuration not allowed when device is in CLIENT mode." s ∧
    (configure "S2" (.defineVlans (List.range' 1 1006) none)).run s =
      .error .vlanLimitExceeded
        { s with devices := s.devices.insert "S2" (Device.factory "S2") } ∧
    (route "S2" "reload").run s = .ok (.rejected (.unknownCommand "reload")) s ∧
    (route "S2" "ping R2").run s = .ok (.ping "R2") s := by
  intro s
  obtain ⟨unread, -⟩ := rejections_are_atomic s "C1" "vlan 20-10"
  obtain ⟨-, unread', -⟩ := rejections_are_atomic s "C1" "show vtp"
  obtain ⟨-, -, refused, -⟩ := rejections_are_atomic s "C1" "vlan 30"
  obtain ⟨-, -, refused', rejected, -, reloaded⟩ := rejections_are_atomic s "S2" "reload"
  obtain ⟨-, -, -, -, ping, pinged⟩ := rejections_are_atomic s "S2" "ping R2"
  have client : (s.configure "C1" (.defineVlans [30] none)).2 =
      .error (.vlanConfigNotAllowed .client) := by decide
  have full : (s.configure "S2" (.defineVlans (List.range' 1 1006) none)).2 =
      .error .vlanLimitExceeded := by decide +kernel
  have ran_full := run_of_refused s "S2" _ full
  obtain ⟨-, known, -, reply⟩ := refused _ _ _ (run_of_refused s "C1" _ client)
  obtain ⟨-, -, unknown, -⟩ := refused' _ _ _ ran_full
  refine ⟨?_, ?_, ?_, ?_, ?_, ?_⟩
  · exact unread (.invalidVlanList "20-10") (by decide)
  · exact unread' .unsupportedShow (by decide)
  · rw [reply (by decide), known (by decide)]
    rfl
  · rw [ran_full, unknown (by decide)]
  · have answer : (s.route "S2" "reload").2 = .rejected (.unknownCommand "reload") := by decide
    have ran := reloaded.route
    rw [answer] at ran
    rw [ran, rejected _ _ ran]
  · have answer : (s.route "S2" "ping R2").2 = .ping "R2" := by decide
    have ran := pinged.route
    rw [answer] at ran
    rw [ran, ping _ _ ran]

end VlanTrunking
