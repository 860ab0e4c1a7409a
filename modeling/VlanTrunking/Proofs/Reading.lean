import VlanTrunking.Command.Config
import VlanTrunking.Proofs.IdList

/-! What a configuration line can be read as. Names, passwords and domains are made of the words of
the line, and ids come out of list texts, so nothing empty, blank or out of range gets past the
reader. -/
namespace VlanTrunking

namespace Text

structure IsWord (s : String) : Prop where
  nonempty : s ≠ ""
  solid : ∀ c ∈ s.toList, isBlank c = false

def IsPhrase (s : String) : Prop :=
  ∃ ws : List String, ws ≠ [] ∧ (∀ w ∈ ws, IsWord w) ∧ s = unwords ws

theorem isWord_of_mem_words {line w : String} (h : w ∈ words line) : IsWord w := by
  obtain ⟨cs, listed, rfl⟩ := List.mem_map.mp h
  obtain ⟨nonempty, solid⟩ := mem_wordsOf listed
  refine ⟨?_, ?_⟩
  · simpa using nonempty
  · simpa using solid

end Text

theorem IdList.canonical_of_read {text : String} {ids : List VlanId}
    (h : IdList.read text = .ok ids) : Canonical ids := by
  unfold read at h
  split at h
  · next read =>
    cases h
    exact canonical_of_read? read
  · cases h

namespace ConfigCommand

def WellFormed : ConfigCommand → Prop
  | setMode _ | enablePruning | disablePruning => True
  | setDomain name => Text.IsWord name
  | setPassword password => Text.IsPhrase password
  | defineVlans ids name => IdList.Canonical ids ∧ ∀ text ∈ name, Text.IsPhrase text
  | removeVlans ids => IdList.Canonical ids
  | setPrivateVlan id kind => VlanId.Assignable id ∧ kind ≠ .normal

section Words

variable {ws : List String} {c : ConfigCommand}

theorem wellFormed_of_vtpWords (solid : ∀ w ∈ ws, Text.IsWord w) (h : ofVtpWords ws = .ok c) :
    c.WellFormed := by
  unfold ofVtpWords at h
  split at h
  · cases h
  · split at h
    · cases h
    · obtain ⟨mode, _, rfl⟩ := accepted_map.mp h
      trivial
    · cases h
    · cases h
      exact solid _ (by simp)
    · cases h
    · next some_words =>
      cases h
      exact ⟨_, some_words, fun w hw => solid w (List.mem_cons_of_mem _ hw), rfl⟩
    · cases h
      trivial
    · cases h

theorem wellFormed_of_vlanWords (solid : ∀ w ∈ ws, Text.IsWord w) (h : ofVlanWords ws = .ok c) :
    c.WellFormed := by
  unfold ofVlanWords at h
  split at h
  · cases h
  · next first rest =>
    dsimp only at h
    split at h
    · cases h
    · split at h
      · obtain ⟨ids, read, h⟩ := accepted_bind.mp h
        cases h
        exact ⟨IdList.canonical_of_read read, by simp⟩
      · next keyword words after_list =>
        split at h
        · cases h
        · next complete =>
          obtain ⟨ids, read, h⟩ := accepted_bind.mp h
          cases h
          have named : words ≠ [] := by
            rintro rfl
            simp at complete
          have listed : ∀ w ∈ words, w ∈ first :: rest := by
            intro w hw
            apply (List.dropWhile_suffix (!isNameKeyword ·)).subset
            rw [after_list]
            exact List.mem_cons_of_mem keyword hw
          refine ⟨IdList.canonical_of_read read, ?_⟩
          rintro _ ⟨⟩
          exact ⟨words, named, fun w hw => solid w (listed w hw), rfl⟩

theorem wellFormed_of_noVlanWords (h : ofNoVlanWords ws = .ok c) : c.WellFormed := by
  unfold ofNoVlanWords at h
  split at h
  · cases h
  · obtain ⟨ids, read, rfl⟩ := accepted_map.mp h
    exact IdList.canonical_of_read read

theorem wellFormed_of_privateVlanWords (h : ofPrivateVlanWords ws = .ok c) : c.WellFormed := by
  unfold ofPrivateVlanWords at h
  split at h
  · cases h
  · split at h
    · cases h
    · next kind role =>
      split at h
      · cases h
      · dsimp only at h
        split at h
        · next id read =>
          cases h
          have assignable := (IdList.canonical_of_read read).assignable id (by simp)
          have private_role : kind ∈ VlanKind.privateRoles := List.mem_of_find?_eq_some role
          refine ⟨assignable, ?_⟩
          rintro rfl
          revert private_role
          decide
        · cases h

theorem wellFormed_of_words (solid : ∀ w ∈ ws, Text.IsWord w) (h : ofWords ws = .ok c) :
    c.WellFormed := by
  unfold ofWords at h
  split at h
  · cases h
  · next first args =>
    have solid_args : ∀ w ∈ args, Text.IsWord w := fun w hw => solid w (by simp [hw])
    split at h
    · exact wellFormed_of_vtpWords solid_args h
    · exact wellFormed_of_vlanWords solid_args h
    · exact wellFormed_of_privateVlanWords h
    · split at h
      · exact wellFormed_of_noVlanWords h
      · cases h
        trivial
      · cases h
    · cases h

end Words

theorem wellFormed_of_read {line : String} {c : ConfigCommand} (h : read line = .ok c) :
    c.WellFormed :=
  wellFormed_of_words (fun _ hw => Text.isWord_of_mem_words hw) h

def keywords : ConfigCommand → List String
  | setMode _ => ["vtp", "mode"]
  | setDomain _ => ["vtp", "domain"]
  | setPassword _ => ["vtp", "password"]
  | enablePruning => ["vtp", "pruning"]
  | disablePruning => ["no", "vtp", "pruning"]
  | defineVlans .. => ["vlan"]
  | removeVlans _ => ["no", "vlan"]
  | setPrivateVlan .. => ["private-vlan"]

section Keywords

variable {ws : List String} {c : ConfigCommand}

theorem keywords_of_vtpWords (h : ofVtpWords ws = .ok c) :
    c.keywords <+: "vtp" :: ws.map Text.lower := by
  unfold ofVtpWords at h
  split at h
  · cases h
  · split at h
    · cases h
    · next sub =>
      obtain ⟨mode, _, rfl⟩ := accepted_map.mp h
      simp [keywords, sub]
    · cases h
    · next sub =>
      cases h
      simp [keywords, sub]
    · cases h
    · next sub _ =>
      cases h
      simp [keywords, sub]
    · next sub =>
      cases h
      simp [keywords, sub]
    · cases h

theorem keywords_of_vlanWords (h : ofVlanWords ws = .ok c) : c.keywords = ["vlan"] := by
  unfold ofVlanWords at h
  split at h
  · cases h
  · dsimp only at h
    split at h
    · cases h
    · split at h
      · obtain ⟨ids, _, h⟩ := accepted_bind.mp h
        cases h
        rfl
      · split at h
        · cases h
        · obtain ⟨ids, _, h⟩ := accepted_bind.mp h
          cases h
          rfl

theorem keywords_of_noVlanWords (h : ofNoVlanWords ws = .ok c) : c.keywords = ["no", "vlan"] := by
  unfold ofNoVlanWords at h
  split at h
  · cases h
  · obtain ⟨ids, _, rfl⟩ := accepted_map.mp h
    rfl

theorem keywords_of_privateVlanWords (h : ofPrivateVlanWords ws = .ok c) :
    c.keywords = ["private-vlan"] := by
  unfold ofPrivateVlanWords at h
  split at h
  · cases h
  · split at h
    · cases h
    · split at h
      · cases h
      · dsimp only at h
        split at h <;> cases h
        rfl

theorem keywords_of_words (h : ofWords ws = .ok c) : c.keywords <+: ws.map Text.lower := by
  unfold ofWords at h
  split at h
  · cases h
  · next first args =>
    rw [List.map_cons]
    split at h
    · next vtp =>
      rw [vtp]
      exact keywords_of_vtpWords h
    · next vlan => simp [keywords_of_vlanWords h, vlan]
    · next keyword => simp [keywords_of_privateVlanWords h, keyword]
    · next no =>
      split at h
      · next vlan => simp [keywords_of_noVlanWords h, no, vlan]
      · next pruning =>
        cases h
        simp [keywords, no, pruning]
      · cases h
    · cases h

theorem keywords_of_read {line : String} (h : read line = .ok c) :
    c.keywords <+: (Text.words line).map Text.lower :=
  keywords_of_words h

end Keywords

end ConfigCommand

end VlanTrunking
