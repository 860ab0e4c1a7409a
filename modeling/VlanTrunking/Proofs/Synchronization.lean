import VlanTrunking.Registry

/-! What a device and the registry exchange when they are synchronised. Data moves in one direction
at a time: a server with a domain writes its record and stays as it is, a client takes over the
record of its domain and leaves the registry alone, and in every other case nothing moves. -/
namespace VlanTrunking

section Entries

variable {α : Type} (entries : Std.ExtTreeMap String α)

theorem insert_insert (name : String) (x y : α) :
    (entries.insert name x).insert name y = entries.insert name y := by
  apply Std.ExtTreeMap.ext_getElem?
  intro key
  simp only [Std.ExtTreeMap.getElem?_insert]
  split <;> rfl

theorem insert_known {name : String} {x : α} (known : entries[name]? = some x) :
    entries.insert name x = entries := by
  apply Std.ExtTreeMap.ext_getElem?
  intro key
  rw [Std.ExtTreeMap.getElem?_insert]
  split
  · next here => rw [← Std.LawfulEqCmp.eq_of_compare here, known]
  · rfl

end Entries

namespace Device

def record (d : Device) : DomainRecord := ⟨d.revision, d.vlans⟩

def adopt (d : Device) (record : DomainRecord) : Device :=
  { d with revision := record.revision, vlans := record.vlans }

@[simp] theorem adopt_mode (d : Device) (r : DomainRecord) : (d.adopt r).mode = d.mode := rfl
@[simp] theorem adopt_domain (d : Device) (r : DomainRecord) : (d.adopt r).domain = d.domain := rfl

theorem not_client_of_server {d : Device} (server : d.mode = .server) : d.mode ≠ .client := by
  rw [server]
  decide

/-- On showing its status a server has nothing new to say. -/
def PublishesOn (d : Device) (t : Trigger) : Prop := d.Advertises ∧ t ≠ .statusShown

instance (d : Device) (t : Trigger) : Decidable (d.PublishesOn t) :=
  inferInstanceAs (Decidable (_ ∧ _))

def PullsOn (d : Device) (t : Trigger) : Prop := d.mode = .client ∧ t ≠ .vlanEdited

instance (d : Device) (t : Trigger) : Decidable (d.PullsOn t) :=
  inferInstanceAs (Decidable (_ ∧ _))

end Device

namespace Registry

@[simp] theorem lookup_noName (r : Registry) : r.lookup "" = none := rfl

theorem lookup_insert (r : Registry) {name : String} (named : name ≠ "") (record : DomainRecord)
    (domain : String) :
    lookup ⟨r.records.insert name record⟩ domain =
      if name = domain then some record else r.lookup domain := by
  by_cases h : domain = ""
  · subst h
    simp [named]
  · simp [lookup, h, Std.ExtTreeMap.getElem?_insert]

theorem records_of_lookup {r : Registry} {domain : String} {record : DomainRecord}
    (h : r.lookup domain = some record) : r.records[domain]? = some record := by
  unfold lookup at h
  split at h
  · cases h
  · exact h

theorem pull_eq_map {r : Registry} {d : Device} (client : d.mode = .client) :
    r.pull d = (r.lookup d.domain).map d.adopt := if_pos client

theorem synchronize_registry (r : Registry) (d : Device) (t : Trigger) :
    (r.synchronize d t).1 =
      if d.PublishesOn t then ⟨r.records.insert d.domain d.record⟩ else r := by
  unfold synchronize
  by_cases advertises : d.Advertises
  · cases t <;>
      simp [Mode.action, advertises.1, publish, advertises, Device.PublishesOn, Device.record]
  · rw [if_neg fun publishes => advertises publishes.1]
    cases hm : d.mode <;> cases t <;> simp [Mode.action, publish, advertises]

theorem synchronize_device (r : Registry) (d : Device) (t : Trigger) :
    (r.synchronize d t).2 =
      if d.PullsOn t then ((r.lookup d.domain).map d.adopt).getD d else d := by
  unfold synchronize
  by_cases client : d.mode = .client
  · rw [pull_eq_map client]
    cases t <;> simp [Mode.action, client, Device.PullsOn]
  · rw [if_neg fun pulls => client pulls.1]
    cases hm : d.mode <;> cases t <;> simp_all [Mode.action]

/-- A device comes out of synchronising as it was, unless it is a client with a record to follow. -/
theorem synchronize_cases (r : Registry) (d : Device) (t : Trigger) :
    (r.synchronize d t).2 = d ∨ d.mode = .client ∧
      ∃ record, r.lookup d.domain = some record ∧ (r.synchronize d t).2 = d.adopt record := by
  rw [synchronize_device]
  split
  · next pulls =>
    cases r.lookup d.domain with
    | none => exact .inl rfl
    | some record => exact .inr ⟨pulls.1, record, rfl, rfl⟩
  · exact .inl rfl

/-- What the registry has on record for the domain of the device is what the device holds. -/
def Knows (r : Registry) (d : Device) : Prop := r.lookup d.domain = some d.record

theorem of_publish {r r' : Registry} {d : Device} (published : r.publish d = some r') :
    d.Advertises ∧ r' = ⟨r.records.insert d.domain d.record⟩ := by
  unfold publish at published
  split at published
  · next advertises => exact ⟨advertises, (Option.some.inj published).symm⟩
  · cases published

theorem of_pull {r : Registry} {d e : Device} (pulled : r.pull d = some e) :
    d.mode = .client ∧ ∃ record, r.lookup d.domain = some record ∧ e = d.adopt record := by
  unfold pull at pulled
  split at pulled
  · next client =>
    obtain ⟨record, found, rfl⟩ := Option.map_eq_some_iff.mp pulled
    exact ⟨client, record, found, rfl⟩
  · cases pulled

theorem knows_of_publish {r r' : Registry} {d : Device} (published : r.publish d = some r') :
    r'.Knows d := by
  obtain ⟨advertises, rfl⟩ := of_publish published
  rw [Knows, lookup_insert r advertises.2, if_pos rfl]

theorem knows_of_pull {r : Registry} {d e : Device} (pulled : r.pull d = some e) : r.Knows e := by
  obtain ⟨_, record, found, rfl⟩ := of_pull pulled
  exact found

section Known

variable {r : Registry} {d : Device} (known : r.Knows d)

include known

theorem publish_of_knows (advertises : d.Advertises) : r.publish d = some r := by
  have same : r.records.insert d.domain d.record = r.records :=
    insert_known r.records (records_of_lookup known)
  rw [publish, if_pos advertises]
  change some (⟨r.records.insert d.domain d.record⟩ : Registry) = some r
  rw [same]

theorem pull_of_knows (client : d.mode = .client) : r.pull d = some d := by
  rw [pull_eq_map client, known]
  rfl

theorem synchronize_of_knows (t : Trigger) : r.synchronize d t = (r, d) := by
  have published : (r.publish d).getD r = r := by
    by_cases advertises : d.Advertises
    · rw [publish_of_knows known advertises, Option.getD_some]
    · rw [publish, if_neg advertises, Option.getD_none]
  have pulled : (r.pull d).getD d = d := by
    by_cases client : d.mode = .client
    · rw [pull_of_knows known client, Option.getD_some]
    · rw [pull, if_neg client, Option.getD_none]
  unfold synchronize
  split
  · rw [published]
  · rw [pulled]
  · rfl

end Known

end Registry

end VlanTrunking
