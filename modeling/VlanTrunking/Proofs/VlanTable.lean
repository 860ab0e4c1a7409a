import VlanTrunking.Proofs.Reading
import VlanTrunking.Vlan.Database

/-! VLAN tables under edits. A table that fits its capacity, has assignable ids only and phrases for
names stays so: definitions are checked for room before anything is entered, ids and names come from
the reader, and a removal only takes entries away. -/
namespace VlanTrunking

namespace VlanDatabase

def Legible (db : VlanDatabase) : Prop :=
  ∀ id v, db[id]? = some v → VlanId.Assignable id ∧ ∀ name ∈ v.name, Text.IsPhrase name

structure WellFormed (db : VlanDatabase) : Prop where
  capacity : db.size ≤ vlanCapacity
  legible : db.Legible

theorem wellFormed_empty : WellFormed ∅ where
  capacity := by simp
  legible := by simp [Legible]

theorem size_modify (db : VlanDatabase) (id : VlanId) (f : Vlan → Vlan) :
    (db.modify id f).size = if db.contains id then db.size else db.size + 1 :=
  Std.ExtTreeMap.size_insert

def modifyAll (db : VlanDatabase) (ids : List VlanId) (f : Vlan → Vlan) : VlanDatabase :=
  ids.foldl (fun db id => db.modify id f) db

theorem modifyAll_cons (db : VlanDatabase) (id : VlanId) (ids : List VlanId) (f : Vlan → Vlan) :
    db.modifyAll (id :: ids) f = (db.modify id f).modifyAll ids f := rfl

/-- Room is reserved for every listed id that is missing, so changing them all needs no more. -/
theorem size_modifyAll_le (db : VlanDatabase) (ids : List VlanId) (f : Vlan → Vlan) :
    (db.modifyAll ids f).size ≤ db.size + (ids.filter fun id => !db.contains id).length := by
  induction ids generalizing db with
  | nil => simp [modifyAll]
  | cons id ids ih =>
    have rest := ih (db.modify id f)
    have fewer : (ids.filter fun other => !(db.modify id f).contains other).length ≤
        (ids.filter fun other => !db.contains other).length := by
      rw [← List.countP_eq_length_filter, ← List.countP_eq_length_filter]
      apply List.countP_mono_left
      intro other _ missing
      simp [modify] at missing
      simp [missing]
    rw [modifyAll_cons, List.filter_cons]
    cases known : db.contains id with
    | true =>
      have size : (db.modify id f).size = db.size := by simp only [size_modify, known, if_true]
      simp only [Bool.not_true, Bool.false_eq_true, if_false]
      omega
    | false =>
      have size : (db.modify id f).size = db.size + 1 := by
        simp only [size_modify, known, Bool.false_eq_true, if_false]
      simp only [Bool.not_false, if_true, List.length_cons]
      omega

theorem legible_modify {db : VlanDatabase} (legible : db.Legible) {id : VlanId}
    (assignable : VlanId.Assignable id) {f : Vlan → Vlan}
    (keeps : ∀ v, ∀ name ∈ (f v).name, name ∈ v.name ∨ Text.IsPhrase name) :
    (db.modify id f).Legible := by
  intro other v known
  rw [modify, Std.ExtTreeMap.getElem?_insert] at known
  split at known
  · next here =>
    obtain rfl := Std.LawfulEqCmp.eq_of_compare here
    cases known
    refine ⟨assignable, fun name named => ?_⟩
    rcases keeps _ name named with already | phrase
    · rw [Std.ExtTreeMap.getD_eq_getD_getElem?] at already
      cases before : db[id]? with
      | none => simp [before] at already
      | some w =>
        rw [before] at already
        exact (legible id w before).2 name already
    · exact phrase
  · exact legible other v known

theorem legible_enter {db : VlanDatabase} (legible : db.Legible) {ids : List VlanId}
    (assignable : ∀ id ∈ ids, VlanId.Assignable id) {name : Option String}
    (phrase : ∀ text ∈ name, Text.IsPhrase text) : (db.enter ids name).Legible := by
  induction ids generalizing db with
  | nil => exact legible
  | cons id ids ih =>
    rw [List.forall_mem_cons] at assignable
    apply ih _ assignable.2
    apply legible_modify legible assignable.1
    intro v text named
    cases name with
    | none => exact .inl named
    | some given => exact .inr (phrase text named)

theorem wellFormed_of_define {db db' : VlanDatabase} (wf : db.WellFormed) {ids : List VlanId}
    (assignable : ∀ id ∈ ids, VlanId.Assignable id) {name : Option String}
    (phrase : ∀ text ∈ name, Text.IsPhrase text) (h : db.define ids name = .ok db') :
    db'.WellFormed := by
  unfold define at h
  split at h
  · next room =>
    cases h
    exact ⟨Nat.le_trans (size_modifyAll_le db ids _) room,
      legible_enter wf.legible assignable phrase⟩
  · cases h

theorem wellFormed_of_setKind {db db' : VlanDatabase} (wf : db.WellFormed) {id : VlanId}
    (assignable : VlanId.Assignable id) {kind : VlanKind} (h : db.setKind id kind = .ok db') :
    db'.WellFormed := by
  unfold setKind at h
  split at h
  · next room =>
    cases h
    have size := size_modifyAll_le db [id] fun v => { v with kind }
    exact ⟨Nat.le_trans size room,
      legible_modify wf.legible assignable fun v name named => .inl named⟩
  · cases h

theorem wellFormed_erase {db : VlanDatabase} (wf : db.WellFormed) (id : VlanId) :
    VlanDatabase.WellFormed (db.erase id) := by
  refine ⟨Nat.le_trans Std.ExtTreeMap.size_erase_le wf.capacity, fun other v known => ?_⟩
  rw [Std.ExtTreeMap.getElem?_erase] at known
  split at known
  · cases known
  · exact wf.legible other v known

theorem wellFormed_remove {db : VlanDatabase} (wf : db.WellFormed) (ids : List VlanId) :
    (db.remove ids).2.WellFormed := by
  induction ids generalizing db with
  | nil => exact wf
  | cons id ids ih =>
    unfold remove
    split
    · exact ih (wellFormed_erase wf id)
    · exact ih wf

section Members

theorem mem_modify {db : VlanDatabase} {id other : VlanId} {f : Vlan → Vlan} :
    other ∈ db.modify id f ↔ other = id ∨ other ∈ db := by
  rw [modify, Std.ExtTreeMap.mem_insert, Std.LawfulEqCmp.compare_eq_iff_eq, eq_comm]

theorem mem_modifyAll {db : VlanDatabase} {ids : List VlanId} {f : Vlan → Vlan} {id : VlanId} :
    id ∈ db.modifyAll ids f ↔ id ∈ ids ∨ id ∈ db := by
  induction ids generalizing db with
  | nil => simp [modifyAll]
  | cons first ids ih =>
    calc
      id ∈ db.modifyAll (first :: ids) f
      _ ↔ id ∈ ids ∨ id ∈ db.modify first f := ih
      _ ↔ id ∈ ids ∨ id = first ∨ id ∈ db := or_congr_right mem_modify
      _ ↔ id ∈ first :: ids ∨ id ∈ db := by rw [List.mem_cons, or_left_comm, or_assoc]

theorem mem_enter {db : VlanDatabase} {ids : List VlanId} {name : Option String} {id : VlanId} :
    id ∈ db.enter ids name ↔ id ∈ ids ∨ id ∈ db := mem_modifyAll

theorem getElem?_remove (db : VlanDatabase) (ids : List VlanId) (id : VlanId) :
    (db.remove ids).2[id]? = if id ∈ ids then none else db[id]? := by
  induction ids generalizing db with
  | nil => simp [remove]
  | cons first ids ih =>
    simp only [List.mem_cons]
    unfold remove
    split
    · have erased : (db.erase first)[id]? = if id = first then none else db[id]? := by
        simp only [Std.ExtTreeMap.getElem?_erase, Std.LawfulEqCmp.compare_eq_iff_eq,
          eq_comm (a := id)]
      dsimp only
      rw [ih, erased]
      by_cases here : id = first
      · simp [here]
      · simp [here]
    · next unknown =>
      rw [ih]
      by_cases here : id = first
      · subst here
        have nothing : db[id]? = none := Std.ExtTreeMap.getElem?_eq_none (by simpa using unknown)
        simp [nothing]
      · simp [here]

theorem remove_sublist (db : VlanDatabase) (ids : List VlanId) :
    (db.remove ids).1.Sublist ids := by
  induction ids generalizing db with
  | nil => exact .refl _
  | cons id ids ih =>
    unfold remove
    split
    · exact (ih (db.erase id)).cons_cons id
    · exact (ih db).cons id

theorem mem_remove {db : VlanDatabase} {ids : List VlanId} {id : VlanId} :
    id ∈ (db.remove ids).1 ↔ id ∈ ids ∧ id ∈ db := by
  induction ids generalizing db with
  | nil => simp [remove]
  | cons first ids ih =>
    have erased : id ∈ db.erase first ↔ id ≠ first ∧ id ∈ db := by
      rw [Std.ExtTreeMap.mem_erase, ne_eq, Std.LawfulEqCmp.compare_eq_iff_eq, eq_comm]
    unfold remove
    split
    · next known =>
      have known : first ∈ db := by simpa using known
      dsimp only
      rw [List.mem_cons, List.mem_cons, ih, erased]
      by_cases here : id = first
      · simp [here, known]
      · simp [here]
    · next unknown =>
      have unknown : first ∉ db := by simpa using unknown
      rw [List.mem_cons, ih]
      by_cases here : id = first
      · simp [here, unknown]
      · simp [here]

theorem mem_remove_rest {db : VlanDatabase} {ids : List VlanId} {id : VlanId} :
    id ∈ (db.remove ids).2 ↔ id ∉ ids ∧ id ∈ db := by
  rw [Std.ExtTreeMap.mem_iff_isSome_getElem?, Std.ExtTreeMap.mem_iff_isSome_getElem?,
    getElem?_remove]
  split <;> simp_all

end Members

end VlanDatabase

end VlanTrunking
