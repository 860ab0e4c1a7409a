import Mathlib.Data.Finset.Card
import Mathlib.Data.List.Perm.Basic
import VlanTrunking.Proofs.Transition
import VlanTrunking.Proofs.VlanTable

/-! Edits of the VLANs of one switch, to the last attribute. A definition and a change of kind are
the same edit of a list of VLANs: it is refused as a whole for lack of room, and otherwise changes
the listed VLANs and nothing else. A removal takes the listed VLANs away and tells which were there,
and it undoes a definition of VLANs that were all new. -/
namespace VlanTrunking

namespace VlanDatabase

variable {db : VlanDatabase} {ids : List VlanId}

theorem getElem?_modify (db : VlanDatabase) (id other : VlanId) (f : Vlan → Vlan) :
    (db.modify id f)[other]? = if other = id then some (f (db[id]?.getD {})) else db[other]? := by
  rw [modify, Std.ExtTreeMap.getElem?_insert, Std.ExtTreeMap.getD_eq_getD_getElem?]
  simp only [Std.LawfulEqCmp.compare_eq_iff_eq, eq_comm (a := id)]

theorem getElem?_modifyAll_of_unlisted {id : VlanId} (unlisted : id ∉ ids) (f : Vlan → Vlan) :
    (db.modifyAll ids f)[id]? = db[id]? := by
  induction ids generalizing db with
  | nil => rfl
  | cons first ids ih =>
    rw [List.mem_cons, not_or] at unlisted
    rw [modifyAll_cons, ih unlisted.2, getElem?_modify, if_neg unlisted.1]

/-- A change that does nothing more the second time is made once, however often a VLAN is listed. -/
theorem getElem?_modifyAll {f : Vlan → Vlan} (settles : ∀ v, f (f v) = f v) (db : VlanDatabase)
    (ids : List VlanId) (id : VlanId) :
    (db.modifyAll ids f)[id]? = if id ∈ ids then some (f (db[id]?.getD {})) else db[id]? := by
  induction ids generalizing db with
  | nil => simp [modifyAll]
  | cons first ids ih =>
    rw [modifyAll_cons, ih, getElem?_modify]
    by_cases here : id = first
    · subst here
      simp [settles]
    · simp [here]

def idsWith (db : VlanDatabase) (ids : List VlanId) : Finset VlanId :=
  db.keys.toFinset ∪ ids.toFinset

theorem mem_idsWith {id : VlanId} : id ∈ db.idsWith ids ↔ id ∈ db ∨ id ∈ ids := by
  rw [idsWith, Finset.mem_union, List.mem_toFinset, List.mem_toFinset, Std.ExtTreeMap.mem_keys]

theorem modifyAll_modifyAll {f : Vlan → Vlan} (settles : ∀ v, f (f v) = f v) (db : VlanDatabase)
    (ids : List VlanId) : (db.modifyAll ids f).modifyAll ids f = db.modifyAll ids f := by
  apply Std.ExtTreeMap.ext_getElem?
  intro id
  rw [getElem?_modifyAll settles, getElem?_modifyAll settles]
  by_cases listed : id ∈ ids
  · rw [if_pos listed, if_pos listed, Option.getD_some, settles]
  · rw [if_neg listed]

theorem hasRoomFor_modifyAll (room : db.HasRoomFor ids) (f : Vlan → Vlan) :
    (db.modifyAll ids f).HasRoomFor ids := by
  have none_missing : (ids.filter fun id => !(db.modifyAll ids f).contains id) = [] := by
    rw [List.filter_eq_nil_iff]
    intro id listed
    have known : id ∈ db.modifyAll ids f := mem_modifyAll.mpr (.inl listed)
    rw [Std.ExtTreeMap.mem_iff_contains] at known
    simp [known]
  rw [HasRoomFor, none_missing, List.length_nil, Nat.add_zero]
  exact Nat.le_trans (size_modifyAll_le db ids f) room

theorem hasRoomFor_iff (nodup : ids.Nodup) :
    db.HasRoomFor ids ↔ (db.idsWith ids).card ≤ vlanCapacity := by
  let missing := ids.filter fun id => !db.contains id
  have distinct : (db.keys ++ missing).Nodup := by
    rw [List.nodup_append]
    refine ⟨Std.ExtTreeMap.nodup_keys, nodup.filter _, fun id known other absent => ?_⟩
    rintro rfl
    rw [Std.ExtTreeMap.mem_keys, Std.ExtTreeMap.mem_iff_contains] at known
    simp [missing, known] at absent
  have union : db.idsWith ids = (db.keys ++ missing).toFinset := by
    ext id
    rw [mem_idsWith, List.mem_toFinset, List.mem_append, List.mem_filter, Std.ExtTreeMap.mem_keys,
      Std.ExtTreeMap.mem_iff_contains]
    cases db.contains id <;> simp
  rw [union, List.toFinset_card_of_nodup distinct, List.length_append, Std.ExtTreeMap.length_keys,
    HasRoomFor]

theorem remove_pairwise (db : VlanDatabase) (ids : List VlanId) :
    (db.remove ids).1.Pairwise fun a b => ids.idxOf a < ids.idxOf b := by
  induction ids generalizing db with
  | nil => exact .nil
  | cons first ids ih =>
    have later {db : VlanDatabase} (gone : first ∉ db) :
        (db.remove ids).1.Pairwise fun a b =>
          (first :: ids).idxOf a < (first :: ids).idxOf b := by
      apply (ih db).imp_of_mem
      intro a b at_a at_b earlier
      have other {c : VlanId} (removed : c ∈ (db.remove ids).1) : first ≠ c := by
        rintro rfl
        exact gone (mem_remove.mp removed).2
      rw [List.idxOf_cons_ne ids (other at_a), List.idxOf_cons_ne ids (other at_b)]
      exact Nat.succ_lt_succ earlier
    unfold remove
    split
    · refine .cons (fun b at_b => ?_) (later (by simp))
      have other : first ≠ b := by
        rintro rfl
        simpa using (mem_remove.mp at_b).2
      rw [List.idxOf_cons_self, List.idxOf_cons_ne ids other]
      exact Nat.succ_pos _
    · next unknown => exact later (by simpa using unknown)

theorem remove_rest (db : VlanDatabase) (ids : List VlanId) :
    (db.remove ids).2 = db.filter fun id _ => id ∉ ids := by
  apply Std.ExtTreeMap.ext_getElem?
  intro id
  rw [getElem?_remove, Std.ExtTreeMap.getElem?_filter']
  by_cases listed : id ∈ ids <;> cases db[id]? <;> simp [listed, Option.filter]

theorem remove_remove (db : VlanDatabase) (ids : List VlanId) :
    ((db.remove ids).2.remove ids).1 = [] := by
  rw [List.eq_nil_iff_forall_not_mem]
  intro id removed
  obtain ⟨listed, left⟩ := mem_remove.mp removed
  exact (mem_remove_rest.mp left).1 listed

theorem remove_of_known (nodup : ids.Nodup) (known : ∀ id ∈ ids, id ∈ db) :
    (db.remove ids).1 = ids := by
  have sublist := remove_sublist db ids
  have same : (db.remove ids).1.Perm ids := by
    rw [List.perm_ext_iff_of_nodup (sublist.nodup nodup) nodup]
    intro id
    rw [mem_remove, and_iff_left_of_imp (known id)]
  exact sublist.eq_of_length same.length_eq

theorem remove_modifyAll (nodup : ids.Nodup) (new : ∀ id ∈ ids, id ∉ db) (f : Vlan → Vlan) :
    (db.modifyAll ids f).remove ids = (ids, db) := by
  have all : ((db.modifyAll ids f).remove ids).1 = ids :=
    remove_of_known nodup fun id listed => mem_modifyAll.mpr (.inl listed)
  have rest : ((db.modifyAll ids f).remove ids).2 = db := by
    apply Std.ExtTreeMap.ext_getElem?
    intro id
    rw [getElem?_remove]
    by_cases listed : id ∈ ids
    · rw [if_pos listed, Std.ExtTreeMap.getElem?_eq_none (new id listed)]
    · rw [if_neg listed, getElem?_modifyAll_of_unlisted listed]
  exact Prod.ext all rest

end VlanDatabase

namespace Device

/-- The listed VLANs are changed by `f`, from their creation on if they were missing, and nothing
else about the device is. -/
structure VlansChanged (d e : Device) (ids : List VlanId) (f : Vlan → Vlan) : Prop where
  settings : e = { d with vlans := e.vlans }
  capacity : e.vlans.size ≤ vlanCapacity
  known (id : VlanId) : id ∈ e.vlans ↔ id ∈ d.vlans ∨ id ∈ ids
  unlisted : ∀ id ∉ ids, e.vlans[id]? = d.vlans[id]?
  listed : ∀ id ∈ ids, e.vlans[id]? = some (f (d.vlans[id]?.getD {}))

def modifyVlans (d : Device) (ids : List VlanId) (f : Vlan → Vlan) : Except CommandError Device :=
  if d.vlans.HasRoomFor ids then .ok { d with vlans := d.vlans.modifyAll ids f }
  else .error .vlanLimitExceeded

theorem renamed_twice (name : Option String) (v : Vlan) :
    ({ v with name := name <|> (name <|> v.name) } : Vlan) = { v with name := name <|> v.name } := by
  cases name <;> simp

theorem defineVlans_eq (d : Device) (ids : List VlanId) (name : Option String) :
    d.defineVlans ids name = d.modifyVlans ids fun v => { v with name := name <|> v.name } := by
  rw [defineVlans, VlanDatabase.define, modifyVlans]
  split <;> rfl

theorem setVlanKind_eq (d : Device) (id : VlanId) (kind : VlanKind) :
    d.setVlanKind id kind = d.modifyVlans [id] fun v => { v with kind } := by
  rw [setVlanKind, VlanDatabase.setKind, modifyVlans]
  split <;> rfl

theorem modifyVlans_error {d : Device} {ids : List VlanId} {f : Vlan → Vlan} {e : CommandError}
    (refused : d.modifyVlans ids f = .error e) : e = .vlanLimitExceeded := by
  unfold modifyVlans at refused
  split at refused <;> cases refused
  rfl

theorem modifyVlans_again {d e e' : Device} {ids : List VlanId} {f : Vlan → Vlan}
    (settles : ∀ v, f (f v) = f v) (accepted : d.modifyVlans ids f = .ok e)
    (same : e'.vlans = e.vlans) : e'.modifyVlans ids f = .ok e' := by
  unfold modifyVlans at accepted
  split at accepted
  · next room =>
    cases accepted
    have room' : e'.vlans.HasRoomFor ids := same ▸ VlanDatabase.hasRoomFor_modifyAll room f
    have settled : e'.vlans.modifyAll ids f = e'.vlans := by
      rw [same]
      exact VlanDatabase.modifyAll_modifyAll settles d.vlans ids
    rw [modifyVlans, if_pos room', settled]
  · cases accepted

section InPlace

/-- A change made on the device itself. What was done before a refusal stays done. -/
abbrev InPlace := EStateM CommandError Device Unit

def ensureRoom (ids : List VlanId) : InPlace := do
  unless (← get).vlans.HasRoomFor ids do throw .vlanLimitExceeded

/-- The edit of a list of VLANs as it goes on in the device: after the check the listed VLANs are
changed one by one. -/
def modifyInPlace (ids : List VlanId) (f : Vlan → Vlan) : InPlace := do
  ensureRoom ids
  ids.forM fun id => modify fun d => { d with vlans := d.vlans.modify id f }

def outcome (d : Device) : Except CommandError Device → EStateM.Result CommandError Device Unit
  | .ok e => .ok () e
  | .error fault => .error fault d

theorem forM_modify_run (ids : List VlanId) (f : Vlan → Vlan) (d : Device) :
    (ids.forM fun id => modify fun d : Device => { d with vlans := d.vlans.modify id f } :
      InPlace).run d = .ok () { d with vlans := d.vlans.modifyAll ids f } := by
  induction ids generalizing d with
  | nil => rfl
  | cons id ids ih => exact ih { d with vlans := d.vlans.modify id f }

theorem modifyInPlace_run (d : Device) (ids : List VlanId) (f : Vlan → Vlan) :
    (modifyInPlace ids f).run d = d.outcome (d.modifyVlans ids f) := by
  unfold modifyVlans
  by_cases room : d.vlans.HasRoomFor ids
  · have checked : (ensureRoom ids).run d = .ok () d := by
      simp [ensureRoom, room]
    rw [if_pos room, outcome, ← forM_modify_run]
    simp [modifyInPlace, checked]
  · have checked : (ensureRoom ids).run d = .error .vlanLimitExceeded d := by
      simp [ensureRoom, room]
    rw [if_neg room, outcome]
    simp [modifyInPlace, checked]

end InPlace

/-- What holds of every edit that changes listed VLANs by `f`. On the device itself it ends with the
edited device, or it is refused for lack of room and the device is as it was; and in a list without
repetitions there is room as long as the ids, old and listed, are not too many. -/
structure EditLaw (d : Device) (ids : List VlanId) (f : Vlan → Vlan)
    (edited : Except CommandError Device) : Prop where
  atomic : (modifyInPlace ids f).run d = d.outcome edited
  fault : ∀ e, edited = .error e → e = .vlanLimitExceeded
  exact : ∀ e, edited = .ok e → d.VlansChanged e ids f
  refused : ids.Nodup →
    (edited.isOk = false ↔ vlanCapacity < (d.vlans.idsWith ids).card)

theorem vlansChanged_of_room {d : Device} {ids : List VlanId} {f : Vlan → Vlan}
    (settles : ∀ v, f (f v) = f v) (room : d.vlans.HasRoomFor ids) :
    d.VlansChanged { d with vlans := d.vlans.modifyAll ids f } ids f where
  settings := rfl
  capacity := Nat.le_trans (VlanDatabase.size_modifyAll_le d.vlans ids f) room
  known id := VlanDatabase.mem_modifyAll.trans or_comm
  unlisted id unlisted := by
    rw [VlanDatabase.getElem?_modifyAll settles, if_neg unlisted]
  listed id listed := by
    rw [VlanDatabase.getElem?_modifyAll settles, if_pos listed]

theorem editLaw_modifyVlans (d : Device) (ids : List VlanId) {f : Vlan → Vlan}
    (settles : ∀ v, f (f v) = f v) : d.EditLaw ids f (d.modifyVlans ids f) where
  atomic := modifyInPlace_run d ids f
  fault _ := modifyVlans_error
  exact e accepted := by
    unfold modifyVlans at accepted
    split at accepted
    · next room =>
      cases accepted
      exact vlansChanged_of_room settles room
    · cases accepted
  refused nodup := by
    rw [← not_le, ← VlanDatabase.hasRoomFor_iff nodup, modifyVlans]
    split <;> simp_all [Except.isOk, Except.toBool]

end Device

/-- An edit of listed VLANs is made completely or not at all. A definition keeps the kinds and gives
the name if there is one; a change of kind keeps the name. -/
theorem vlan_edits_are_exact (d : Device) (ids : List VlanId) (name : Option String) (id : VlanId)
    (kind : VlanKind) :
    d.EditLaw ids (fun v => { v with name := name <|> v.name }) (d.defineVlans ids name) ∧
      d.EditLaw [id] (fun v => { v with kind }) (d.setVlanKind id kind) := by
  rw [Device.defineVlans_eq, Device.setVlanKind_eq]
  exact ⟨d.editLaw_modifyVlans ids (Device.renamed_twice name),
    d.editLaw_modifyVlans [id] fun _ => rfl⟩

theorem vlan_edits_are_exact_full :
    let d := (Device.factory "S1").insertVlan 3 ⟨some "core", .isolated⟩
    (∃ e, d.defineVlans (List.range' 1 1005) (some "users") = .ok e ∧
      e.vlans.size ≤ vlanCapacity ∧ e.vlans[3]? = some ⟨some "users", .isolated⟩ ∧
      e.vlans[1005]? = some ⟨some "users", .normal⟩ ∧ e.vlans[1006]? = none) ∧
    (d.defineVlans (List.range' 4 1005) none).isOk = false ∧
    vlanCapacity < (d.vlans.idsWith (List.range' 4 1005)).card ∧
    ∃ e, d.setVlanKind 3 .primary = .ok e ∧ e.vlans[3]? = some ⟨some "core", .primary⟩ := by
  intro d
  obtain ⟨defined, changed⟩ :=
    vlan_edits_are_exact d (List.range' 1 1005) (some "users") 3 .primary
  obtain ⟨overfull, -⟩ := vlan_edits_are_exact d (List.range' 4 1005) none 3 .primary
  have too_many : (d.defineVlans (List.range' 4 1005) none).isOk = false := by decide +kernel
  obtain ⟨e, edited⟩ : ∃ e, d.defineVlans (List.range' 1 1005) (some "users") = .ok e :=
    accepted_of_isOk (by decide +kernel)
  obtain ⟨e', edited'⟩ : ∃ e, d.setVlanKind 3 .primary = .ok e := accepted_of_isOk (by decide)
  have after := defined.exact e edited
  have after' := changed.exact e' edited'
  refine ⟨⟨e, edited, after.capacity, ?_, ?_, ?_⟩, too_many, ?_, e', edited', ?_⟩
  · rw [after.listed 3 (by simp)]
    rfl
  · rw [after.listed 1005 (by simp)]
    rfl
  · rw [after.unlisted 1006 (by simp)]
    rfl
  · exact (overfull.refused List.nodup_range').mp too_many
  · rw [after'.listed 3 (by simp)]
    rfl

/-- A removal gives out the listed VLANs that were there, each once and in the order in which they
are first listed, and takes them away and nothing else. It undoes a definition of new VLANs. -/
theorem removal_is_exact (d : Device) (ids : List VlanId) :
    let removed := (d.removeVlans ids).1
    (∀ id, id ∈ removed ↔ id ∈ ids ∧ id ∈ d.vlans) ∧
    removed.Nodup ∧ (removed.Pairwise fun a b => ids.idxOf a < ids.idxOf b) ∧
    (d.removeVlans ids).2 = { d with vlans := d.vlans.filter fun id _ => id ∉ ids } ∧
    ∀ name e, ids.Nodup → (∀ id ∈ ids, id ∉ d.vlans) → d.defineVlans ids name = .ok e →
      e.removeVlans ids = (ids, d) := by
  intro removed
  have in_order : removed.Pairwise fun a b => ids.idxOf a < ids.idxOf b :=
    d.vlans.remove_pairwise ids
  refine ⟨fun id => VlanDatabase.mem_remove, ?_, in_order, ?_, fun name e nodup new accepted => ?_⟩
  · apply in_order.imp
    rintro a b earlier rfl
    exact Nat.lt_irrefl _ earlier
  · rw [← VlanDatabase.remove_rest]
    rfl
  · rw [Device.defineVlans_eq, Device.modifyVlans] at accepted
    split at accepted <;> cases accepted
    rw [Device.removeVlans, VlanDatabase.remove_modifyAll nodup new]

theorem removal_is_exact_repeats :
    let d := (Device.factory "S1").insertVlan 10 {} |>.insertVlan 20 {} |>.insertVlan 30 {}
    (d.removeVlans [30, 99, 10, 30]).1 = [30, 10] ∧
      (∀ id, id ∈ [30, 10] ↔ id ∈ [30, 99, 10, 30] ∧ id ∈ d.vlans) ∧
      ∃ e, d.defineVlans [50, 40] (some "users") = .ok e ∧ e.removeVlans [50, 40] = ([50, 40], d) := by
  intro d
  obtain ⟨members, -⟩ := removal_is_exact d [30, 99, 10, 30]
  obtain ⟨-, -, -, -, undone⟩ := removal_is_exact d [50, 40]
  obtain ⟨e, accepted⟩ : ∃ e, d.defineVlans [50, 40] (some "users") = .ok e :=
    accepted_of_isOk (by decide)
  exact ⟨rfl, members, e, accepted, undone _ e (by decide) (by decide) accepted⟩

end VlanTrunking
