import VlanTrunking.Proofs.History
import VlanTrunking.Proofs.Routing
import VlanTrunking.Proofs.VlanTable
import VlanTrunking.Proofs.Writing

/-! What the replies to edits of VLANs say about the state. The list in a reply is read back as the
ids that were asked for or taken away, and the reply that nothing was there to remove is given
exactly when nothing has changed. -/
namespace VlanTrunking

def printedList (reply : String) : String := (Text.words reply)[1]?.getD ""

theorem printedList_eq {reply list : String} (word : Text.IsWord list) (rest : String)
    (text : reply = "VLAN" ++ " " ++ (list ++ " " ++ rest)) : printedList reply = list := by
  have first : Text.Solid "VLAN".toList := by decide
  rw [printedList, text, Text.words_append_space first,
    Text.words_append_space (Text.isWord_iff_solid.mp word)]
  rfl

namespace Service

variable {s : Service} {id reply : String} {c : ConfigCommand} {ids : List VlanId}

theorem configure_of_edited {edited : Except CommandError Device} {text : String}
    (edits : c.edit (s.device id) = .ofVlans (s.device id) edited text)
    (keeps : ∀ e, edited = .ok e → e.mode = (s.device id).mode)
    (accepted : (s.configure id c).2 = .ok reply) :
    reply = text ∧ ∃ e, edited = .ok e ∧ ((s.configure id c).1.device id).vlans = e.vlans := by
  rw [configure_eq, edits] at accepted ⊢
  dsimp only at accepted ⊢
  rcases Edit.ofVlans_cases (s.device id) edited text with ⟨editor, e, ok, h⟩ | ⟨_, h⟩
  · have still : ¬e.countEdit.mode = .client := by rwa [Device.countEdit_mode, keeps e ok]
    rw [h] at accepted ⊢
    rw [device_store_self, Registry.settle_of_not_client _ still, Device.countEdit_vlans]
    exact ⟨(Except.ok.inj accepted).symm, e, ok, rfl⟩
  · rw [h] at accepted
    cases accepted

theorem configure_of_defined {name : Option String}
    (accepted : (s.configure id (.defineVlans ids name)).2 = .ok reply) :
    reply = "VLAN " ++ IdList.write ids ++ " defined" ++ name.elim "" (" with name " ++ ·) ∧
      ((s.configure id (.defineVlans ids name)).1.device id).vlans =
        (s.device id).vlans.enter ids name := by
  have keeps : ∀ e, (s.device id).defineVlans ids name = .ok e → e.mode = (s.device id).mode := by
    intro e ok
    obtain ⟨vlans, _, rfl⟩ := Device.of_defineVlans ok
    rfl
  obtain ⟨text, e, ok, after⟩ := configure_of_edited rfl keeps accepted
  obtain ⟨vlans, defined, rfl⟩ := Device.of_defineVlans ok
  constructor
  · rw [text]
    cases name <;> rfl
  · unfold VlanDatabase.define at defined
    split at defined <;> cases defined
    exact after

theorem configure_of_nothing_removed
    (none_there : ((s.device id).vlans.remove ids).1 = [])
    (accepted : (s.configure id (.removeVlans ids)).2 = .ok reply) :
    reply = "No matching VLANs to remove" ∧
      (s.configure id (.removeVlans ids)).1.device id = s.device id ∧
      (s.configure id (.removeVlans ids)).1.registry = s.registry := by
  rw [configure_eq, ConfigCommand.edit_removeVlans_of_none none_there] at accepted ⊢
  refine ⟨?_, device_store_self .., rfl⟩
  dsimp only [Edit.unsynchronized] at accepted
  cases allowed : ConfigCommand.requireEditable (s.device id) with
  | error e =>
    rw [allowed] at accepted
    cases accepted
  | ok _ =>
    rw [allowed] at accepted
    exact (Except.ok.inj accepted).symm

theorem configure_of_removed
    (some_there : ((s.device id).vlans.remove ids).1 ≠ [])
    (accepted : (s.configure id (.removeVlans ids)).2 = .ok reply) :
    reply = "VLAN " ++ IdList.write ((s.device id).vlans.remove ids).1 ++ " removed" ∧
      ((s.configure id (.removeVlans ids)).1.device id).vlans =
        ((s.device id).vlans.remove ids).2 := by
  have edits := ConfigCommand.edit_removeVlans_of_some some_there
  obtain ⟨text, e, ok, after⟩ := configure_of_edited edits (by rintro e ⟨⟩; rfl) accepted
  cases ok
  exact ⟨text, after⟩

end Service

namespace ConfigCommand

variable {line : String} {c : ConfigCommand}

theorem defines_of_keyword (read : read line = .ok c)
    (begins : ["vlan"] <+: (Text.words line).map Text.lower) :
    ∃ ids name, c = .defineVlans ids name := by
  obtain ⟨rest, begins⟩ := begins
  have keywords := keywords_of_read read
  rw [← begins] at keywords
  cases c with
  | defineVlans ids name => exact ⟨ids, name, rfl⟩
  | _ => simp [ConfigCommand.keywords] at keywords

theorem removes_of_keywords (read : read line = .ok c)
    (begins : ["no", "vlan"] <+: (Text.words line).map Text.lower) :
    ∃ ids, c = .removeVlans ids := by
  obtain ⟨rest, begins⟩ := begins
  have keywords := keywords_of_read read
  rw [← begins] at keywords
  cases c with
  | removeVlans ids => exact ⟨ids, rfl⟩
  | _ => simp [ConfigCommand.keywords] at keywords

end ConfigCommand

theorem IdList.Canonical.of_sublist {ids part : List VlanId} (canonical : Canonical ids)
    (sublist : part.Sublist ids) (some_left : part ≠ []) : Canonical part where
  nonempty := some_left
  ascending := canonical.ascending.sublist sublist
  assignable id listed := canonical.assignable id (sublist.subset listed)

namespace Service

variable {s : Service} {id reply : String} {ids : List VlanId}

theorem defined_reply (canonical : IdList.Canonical ids) {name : Option String}
    (accepted : (s.configure id (.defineVlans ids name)).2 = .ok reply) :
    reply = "VLAN " ++ printedList reply ++ " defined" ++ name.elim "" (" with name " ++ ·) ∧
      IdList.read (printedList reply) = .ok ids ∧
      ∀ vlan ∈ ids, vlan ∈ ((s.configure id (.defineVlans ids name)).1.device id).vlans := by
  obtain ⟨text, after⟩ := configure_of_defined accepted
  have printed : printedList reply = IdList.write ids := by
    apply printedList_eq (IdList.isWord_write canonical)
      ("defined" ++ name.elim "" (" with name " ++ ·))
    simp [text, ← String.toList_inj]
  rw [printed, after]
  refine ⟨text, IdList.read_write canonical, fun vlan listed => ?_⟩
  exact VlanDatabase.mem_enter.mpr (.inl listed)

theorem removed_reply (canonical : IdList.Canonical ids)
    (accepted : (s.configure id (.removeVlans ids)).2 = .ok reply)
    (matching : ∃ vlan ∈ ids, vlan ∈ (s.device id).vlans) :
    reply = "VLAN " ++ printedList reply ++ " removed" ∧
      ∃ removed, IdList.read (printedList reply) = .ok removed ∧ removed.Pairwise (· < ·) ∧
        ∀ vlan, vlan ∈ removed ↔ vlan ∈ (s.device id).vlans ∧
          vlan ∉ ((s.configure id (.removeVlans ids)).1.device id).vlans := by
  have some_there : ((s.device id).vlans.remove ids).1 ≠ [] := by
    obtain ⟨vlan, matching⟩ := matching
    exact List.ne_nil_of_mem (VlanDatabase.mem_remove.mpr matching)
  have removed : IdList.Canonical ((s.device id).vlans.remove ids).1 :=
    canonical.of_sublist (VlanDatabase.remove_sublist _ ids) some_there
  obtain ⟨text, after⟩ := configure_of_removed some_there accepted
  have printed : printedList reply = IdList.write ((s.device id).vlans.remove ids).1 := by
    apply printedList_eq (IdList.isWord_write removed) "removed"
    simp [text, ← String.toList_inj]
  rw [printed, after]
  refine ⟨text, _, IdList.read_write removed, removed.ascending, fun vlan => ?_⟩
  rw [VlanDatabase.mem_remove, VlanDatabase.mem_remove_rest]
  tauto

theorem nothing_removed_iff (accepted : (s.configure id (.removeVlans ids)).2 = .ok reply) :
    reply = "No matching VLANs to remove" ↔
      ((s.configure id (.removeVlans ids)).1.device id).vlans = (s.device id).vlans ∧
        ((s.configure id (.removeVlans ids)).1.device id).revision = (s.device id).revision ∧
        (s.configure id (.removeVlans ids)).1.registry = s.registry := by
  by_cases none_there : ((s.device id).vlans.remove ids).1 = []
  · obtain ⟨text, device, registry⟩ := configure_of_nothing_removed none_there accepted
    simp [text, device, registry]
  · obtain ⟨text, after⟩ := configure_of_removed none_there accepted
    obtain ⟨vlan, removed⟩ := List.exists_mem_of_ne_nil _ none_there
    have gone : ((s.configure id (.removeVlans ids)).1.device id).vlans ≠ (s.device id).vlans := by
      intro unchanged
      obtain ⟨listed, there⟩ := VlanDatabase.mem_remove.mp removed
      rw [← unchanged, after, VlanDatabase.mem_remove_rest] at there
      exact there.1 listed
    have other : reply ≠ "No matching VLANs to remove" := by
      rw [text]
      simp [← String.toList_inj]
    simp [gone, other]

end Service

/-- The reply to an accepted line about VLANs can be taken at its word: its list is read back as the
ids that were asked for, and are there now, or as those that were there and are gone; and if there
was nothing to remove, nothing has changed. -/
theorem vlan_replies_tell_truth (s : Service) (id line : String) {c : ConfigCommand}
    (read : ConfigCommand.read line = .ok c) (accepted : (s.configure id c).2.isOk) :
    let words := (Text.words line).map Text.lower
    let reply := (s.handleConfig id line).2
    let before := s.device id
    let after := (s.handleConfig id line).1.device id
    (["vlan"] <+: words → ∃ ids name, c = .defineVlans ids name ∧
      reply = "VLAN " ++ printedList reply ++ " defined" ++ name.elim "" (" with name " ++ ·) ∧
      IdList.read (printedList reply) = .ok ids ∧ ∀ vlan ∈ ids, vlan ∈ after.vlans) ∧
    (["no", "vlan"] <+: words → ∃ ids, c = .removeVlans ids ∧
      ((∃ vlan ∈ ids, vlan ∈ before.vlans) →
        reply = "VLAN " ++ printedList reply ++ " removed" ∧
        ∃ removed, IdList.read (printedList reply) = .ok removed ∧ removed.Pairwise (· < ·) ∧
          ∀ vlan, vlan ∈ removed ↔ vlan ∈ before.vlans ∧ vlan ∉ after.vlans) ∧
      (reply = "No matching VLANs to remove" ↔
        after.vlans = before.vlans ∧ after.revision = before.revision ∧
          (s.handleConfig id line).1.registry = s.registry)) ∧
    ∀ ids, IdList.Canonical ids → IdList.read (IdList.write ids) = .ok ids := by
  intro words reply before after
  obtain ⟨text, accepted⟩ := accepted_of_isOk accepted
  have handled : s.handleConfig id line = ((s.configure id c).1, text) := by
    rw [Service.handleConfig_of_read read, Service.perform, accepted, shownOutcome]
  have wellFormed := ConfigCommand.wellFormed_of_read read
  simp only [reply, after, before, words, handled]
  refine ⟨fun begins => ?_, fun begins => ?_, fun ids => IdList.read_write⟩
  · obtain ⟨ids, name, rfl⟩ := ConfigCommand.defines_of_keyword read begins
    exact ⟨ids, name, rfl, Service.defined_reply wellFormed.1 accepted⟩
  · obtain ⟨ids, rfl⟩ := ConfigCommand.removes_of_keywords read begins
    exact ⟨ids, rfl, Service.removed_reply wellFormed accepted,
      Service.nothing_removed_iff accepted⟩

theorem vlan_replies_tell_truth_overlap :
    let s := (Service.run {} excursion).1
    let defined := s.handleConfig "S1" "VLAN 31, +028-29 name Vlan 5 defined"
    let removed := s.handleConfig "S1" "no vlan 10,20-22"
    let untouched := s.handleConfig "S1" "no vlan 10"
    IdList.read (printedList defined.2) = .ok [28, 29, 31] ∧
      (∀ vlan ∈ [28, 29, 31], vlan ∈ (defined.1.device "S1").vlans) ∧
      removed.2 = "VLAN " ++ printedList removed.2 ++ " removed" ∧
      (∃ ids, IdList.read (printedList removed.2) = .ok ids ∧
        ∀ vlan, vlan ∈ ids ↔
          vlan ∈ (s.device "S1").vlans ∧ vlan ∉ (removed.1.device "S1").vlans) ∧
      untouched.1.registry = s.registry := by
  intro s defined removed untouched
  obtain ⟨defines, -, -⟩ := vlan_replies_tell_truth s "S1" "VLAN 31, +028-29 name Vlan 5 defined"
    (c := .defineVlans [28, 29, 31] (some "Vlan 5 defined")) (by decide) (by decide)
  obtain ⟨-, removes, -⟩ := vlan_replies_tell_truth s "S1" "no vlan 10,20-22"
    (c := .removeVlans [10, 20, 21, 22]) (by decide) (by decide)
  obtain ⟨-, finds_none, -⟩ := vlan_replies_tell_truth s "S1" "no vlan 10"
    (c := .removeVlans [10]) (by decide) (by decide)
  obtain ⟨ids, name, same, -, reads, there⟩ := defines (by decide)
  obtain ⟨ids', same', matching, -⟩ := removes (by decide)
  obtain ⟨ids'', -, -, nothing⟩ := finds_none (by decide)
  cases same
  cases same'
  obtain ⟨text, gone, read_gone, -, exact_gone⟩ := matching (by decide)
  exact ⟨reads, there, text, ⟨gone, read_gone, exact_gone⟩, (nothing.mp (by decide)).2.2⟩

end VlanTrunking
