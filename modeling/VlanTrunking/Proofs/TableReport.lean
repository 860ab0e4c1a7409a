import VlanTrunking.Proofs.Report
import VlanTrunking.Proofs.VlanTable
import VlanTrunking.Proofs.Writing

/-! Tables of VLANs that can be read back. A line of the table has the id for its first word and the
kind for its last one, so the words between them are the name, however long it is and whatever its
words are. Two tables are the same only if they show the same. -/
namespace VlanTrunking

namespace Text

theorem isPhrase_of_isWord {w : String} (word : IsWord w) : IsPhrase w :=
  ⟨[w], by simp, by simpa using word, by simp [unwords]⟩

theorem mem_unwords {ws : List String} {c : Char} (listed : c ∈ (unwords ws).toList) :
    c = ' ' ∨ ∃ w ∈ ws, c ∈ w.toList := by
  induction ws with
  | nil => simp [unwords] at listed
  | cons w ws ih =>
    cases ws with
    | nil => exact .inr ⟨w, by simp, by simpa [unwords] using listed⟩
    | cons v ws =>
      rw [unwords_cons (by simp)] at listed
      simp only [String.toList_append, List.mem_append] at listed
      rcases listed with (first | space) | later
      · exact .inr ⟨w, by simp, first⟩
      · exact .inl (by simpa using space)
      · rcases ih later with space | ⟨u, listed, inside⟩
        · exact .inl space
        · exact .inr ⟨u, List.mem_cons_of_mem w listed, inside⟩

theorem IsPhrase.no_newline {s : String} (phrase : IsPhrase s) : '\n' ∉ s.toList := by
  obtain ⟨ws, -, word, rfl⟩ := phrase
  intro listed
  rcases mem_unwords listed with space | ⟨w, listed, inside⟩
  · exact absurd space (by decide)
  · exact absurd ((word w listed).solid '\n' inside) (by decide)

theorem padRight_space (width : Nat) (s : String) :
    ∃ gap, gap.toList.all isBlank = true ∧ gap ≠ "" ∧ padRight width s ++ " " = s ++ gap := by
  have space : isBlank ' ' = true := by decide
  refine ⟨String.ofList (List.replicate (width - s.length) ' ') ++ " ", ?_, ?_, ?_⟩
  · simp [space]
  · simp
  · rw [padRight, String.append_assoc]

end Text

namespace VlanKind

def ofName? (word : String) : Option VlanKind :=
  (normal :: privateRoles).find? fun kind => kind.name = word

theorem ofName?_name (kind : VlanKind) : ofName? kind.name = some kind := by cases kind <;> decide

theorem isWord_name (kind : VlanKind) : Text.IsWord kind.name := by cases kind <;> decide

end VlanKind

abbrev ShownVlan := VlanId × String × VlanKind

def Vlan.shownAs (id : VlanId) (v : Vlan) : String × VlanKind := (v.displayName id, v.kind)

namespace VlanDatabase

def NamedByPhrases (db : VlanDatabase) : Prop :=
  ∀ (id : VlanId) v, db[id]? = some v → ∀ name ∈ v.name, Text.IsPhrase name

theorem Legible.namedByPhrases {db : VlanDatabase} (legible : db.Legible) : db.NamedByPhrases :=
  fun id v known => (legible id v known).2

end VlanDatabase

namespace Device

/-- Reads a line of the table back: the first word is the id, the last one is the kind, and the
words between them make the name. -/
def readRow? (row : String) : Option ShownVlan :=
  match Text.words row with
  | [] => none
  | first :: rest => do
    let id ← Text.readNat first.toList
    let kind ← VlanKind.ofName? (← rest.getLast?)
    return (id, Text.unwords rest.dropLast, kind)

section Rows

variable {id name kind : String}

theorem words_tableRow (id_word : Text.IsWord id) (kind_word : Text.IsWord kind) :
    Text.words (tableRow id name kind) = id :: (Text.words name ++ [kind]) := by
  obtain ⟨gap, blank, some_left, first⟩ := Text.padRight_space 4 id
  obtain ⟨gap', blank', some_left', second⟩ := Text.padRight_space 32 name
  have columns : tableRow id name kind = id ++ gap ++ (name ++ gap' ++ kind) := by
    rw [tableRow, first, ← second]
    simp only [String.append_assoc]
  have one : Text.words kind = [kind] := by
    simp [Text.words, Text.wordsOf_solid (Text.isWord_iff_solid.mp kind_word)]
  rw [columns, Text.words_append_gap (Text.isWord_iff_solid.mp id_word) blank some_left,
    Text.words_parted blank' some_left', one]

theorem isWord_repr (n : Nat) : Text.IsWord n.repr where
  nonempty := by simp
  solid := by
    rw [Nat.toList_repr]
    exact IdList.solid_toDigits n

theorem readRow?_tableRow {id : VlanId} {name : String} (phrase : Text.IsPhrase name)
    (kind : VlanKind) : readRow? (tableRow id.repr name kind.name) = some (id, name, kind) := by
  rw [readRow?, words_tableRow (isWord_repr id) kind.isWord_name]
  simp [Text.readNat_toDigits, kind.ofName?_name, phrase.words.2]

end Rows

theorem isPhrase_displayName {v : Vlan} (named : ∀ name ∈ v.name, Text.IsPhrase name)
    (id : VlanId) : Text.IsPhrase (v.displayName id) := by
  cases configured : v.name with
  | some name =>
    have shown : v.displayName id = name := by rw [Vlan.displayName, configured, Option.getD_some]
    rw [shown]
    exact named name configured
  | none =>
    have shown : v.displayName id = "VLAN" ++ Text.zeroPadded 4 id := by
      rw [Vlan.displayName, configured, Option.getD_none]
    rw [shown]
    apply Text.isPhrase_of_isWord
    refine ⟨by simp, ?_⟩
    intro c listed
    simp only [Text.zeroPadded, String.toList_append, List.mem_append, String.toList_ofList,
      List.mem_replicate] at listed
    rcases listed with letter | ⟨-, rfl⟩ | digit
    · have letters : "VLAN".toList.all (!Text.isBlank ·) = true := by decide
      simpa using List.all_eq_true.mp letters c letter
    · decide
    · exact (isWord_repr id).solid c digit

/-- The VLANs of a device as its table shows them, by ascending id. -/
def shownVlans (d : Device) : List ShownVlan :=
  (d.vlans.map Vlan.shownAs).toList

def rowOf (shown : ShownVlan) : String :=
  tableRow shown.1.repr shown.2.1 shown.2.2.name

section Table

variable {d e : Device}

theorem shownVlans_eq_iff : d.shownVlans = e.shownVlans ↔
    ∀ id : VlanId, d.vlans[id]?.map (Vlan.shownAs id) = e.vlans[id]?.map (Vlan.shownAs id) := by
  rw [shownVlans, shownVlans, Std.ExtTreeMap.toList_inj]
  simp only [← Std.ExtTreeMap.getElem?_map]
  exact ⟨fun same id => by rw [same], Std.ExtTreeMap.ext_getElem?⟩

theorem mem_shownVlans {id : VlanId} {name : String} {kind : VlanKind} :
    (id, name, kind) ∈ d.shownVlans ↔
      ∃ v, d.vlans[id]? = some v ∧ v.displayName id = name ∧ v.kind = kind := by
  rw [shownVlans, Std.ExtTreeMap.mem_toList_iff_getElem?_eq_some, Std.ExtTreeMap.getElem?_map,
    Option.map_eq_some_iff]
  simp only [Vlan.shownAs, Prod.mk.injEq]

theorem ascending_shownVlans (d : Device) : d.shownVlans.Pairwise fun v w => v.1 < w.1 := by
  have ordered := (d.vlans.map Vlan.shownAs).ordered_keys_toList
  exact ordered.imp Nat.compare_eq_lt.mp

theorem tableText_eq (d : Device) : d.tableText =
    if d.shownVlans.isEmpty then "No VLANs configured"
    else "\n".intercalate (tableHeader ++ d.shownVlans.map rowOf) := by
  have rows : d.shownVlans.map rowOf = d.vlans.toList.map fun entry =>
      tableRow entry.1.repr (entry.2.displayName entry.1) entry.2.kind.name := by
    rw [shownVlans, Std.ExtTreeMap.toList_map, List.map_map]
    rfl
  have none_left : d.shownVlans.isEmpty = d.vlans.isEmpty := by
    rw [shownVlans, Std.ExtTreeMap.toList_map, List.isEmpty_map, Std.ExtTreeMap.isEmpty_toList]
  rw [rows, none_left]
  rfl

theorem isPhrase_of_shown (named : d.vlans.NamedByPhrases) {shown : ShownVlan}
    (listed : shown ∈ d.shownVlans) : Text.IsPhrase shown.2.1 := by
  obtain ⟨v, known, name, -⟩ := mem_shownVlans.mp listed
  rw [← name]
  exact isPhrase_displayName (named _ v known) _

theorem readRow?_rowOf (named : d.vlans.NamedByPhrases) {shown : ShownVlan}
    (listed : shown ∈ d.shownVlans) : readRow? (rowOf shown) = some shown :=
  readRow?_tableRow (isPhrase_of_shown named listed) shown.2.2

theorem readRow?_rows (named : d.vlans.NamedByPhrases) :
    (d.shownVlans.map rowOf).map readRow? = d.shownVlans.map some := by
  rw [List.map_map]
  apply List.map_congr_left
  intro shown listed
  rw [Function.comp_apply, readRow?_rowOf named listed]

theorem no_newline_rowOf (named : d.vlans.NamedByPhrases) {shown : ShownVlan}
    (listed : shown ∈ d.shownVlans) : '\n' ∉ (rowOf shown).toList := by
  have id := Text.notMem_toDigits (c := '\n') (by decide)
  have name := (isPhrase_of_shown named listed).no_newline
  have kind : '\n' ∉ shown.2.2.name.toList := by cases shown.2.2 <;> decide
  simp [rowOf, tableRow, Text.padRight, id, name, kind]

theorem lines_tableText (named : d.vlans.NamedByPhrases) (some_left : d.shownVlans ≠ []) :
    Text.lines d.tableText = tableHeader ++ d.shownVlans.map rowOf := by
  have header : ∀ line ∈ tableHeader, '\n' ∉ line.toList := by decide
  have rows : ∀ line ∈ d.shownVlans.map rowOf, '\n' ∉ line.toList := by
    rw [List.forall_mem_map]
    exact fun _ listed => no_newline_rowOf named listed
  rw [tableText_eq, if_neg (by simpa using some_left)]
  exact Text.lines_of_whole (by simp [tableHeader]) (List.forall_mem_append.mpr ⟨header, rows⟩)

theorem tableText_ne_of_nil (none_left : d.shownVlans = []) (named : e.vlans.NamedByPhrases)
    (some_left : e.shownVlans ≠ []) : d.tableText ≠ e.tableText := by
  intro same
  have one : Text.lines "No VLANs configured" = ["No VLANs configured"] := by decide
  have lines := lines_tableText named some_left
  rw [← same, tableText_eq, none_left, List.isEmpty_nil, if_pos rfl, one] at lines
  have longer := congrArg List.length lines
  simp [tableHeader] at longer

theorem tableText_eq_iff (named : d.vlans.NamedByPhrases) (named' : e.vlans.NamedByPhrases) :
    d.tableText = e.tableText ↔ d.shownVlans = e.shownVlans := by
  constructor
  · intro same
    by_cases none_left : d.shownVlans = []
    · by_contra other
      have some_left : e.shownVlans ≠ [] := fun none_left' =>
        other (none_left.trans none_left'.symm)
      exact tableText_ne_of_nil none_left named' some_left same
    · have some_left : e.shownVlans ≠ [] := fun none_left' =>
        tableText_ne_of_nil none_left' named none_left same.symm
      have lines : tableHeader ++ d.shownVlans.map rowOf =
          tableHeader ++ e.shownVlans.map rowOf := by
        rw [← lines_tableText named none_left, ← lines_tableText named' some_left, same]
      have rows : d.shownVlans.map rowOf = e.shownVlans.map rowOf :=
        List.append_cancel_left lines
      have read : d.shownVlans.map some = e.shownVlans.map some := by
        rw [← readRow?_rows named, ← readRow?_rows named', rows]
      exact List.map_injective_iff.mpr (Option.some_injective _) read
  · intro same
    rw [tableText_eq, tableText_eq, same]

end Table

end Device

/-- Two tables are the same exactly if they show the same VLANs with the same names and kinds. Below
two header lines a table has one line for each VLAN, in the order of their ids, and each line says
what it shows. -/
theorem vlan_table_is_faithful (d e : Device) (named : d.vlans.NamedByPhrases)
    (named' : e.vlans.NamedByPhrases) :
    (d.tableText = e.tableText ↔
      ∀ id : VlanId, d.vlans[id]?.map (Vlan.shownAs id) = e.vlans[id]?.map (Vlan.shownAs id)) ∧
    (d.vlans ≠ ∅ → ∃ title rule rows, ∃ shown : List ShownVlan,
      Text.lines d.tableText = title :: rule :: rows ∧ [title, rule] = Device.tableHeader ∧
      rows.map Device.readRow? = shown.map some ∧ (shown.Pairwise fun v w => v.1 < w.1) ∧
      ∀ id name kind, (id, name, kind) ∈ shown ↔
        ∃ v, d.vlans[id]? = some v ∧ v.displayName id = name ∧ v.kind = kind) := by
  refine ⟨?same, ?lines⟩
  case same => rw [Device.tableText_eq_iff named named', Device.shownVlans_eq_iff]
  case lines =>
    intro some_left
    have shown_left : d.shownVlans ≠ [] := by
      intro none_left
      have nothing : d.shownVlans.isEmpty = true := by rw [none_left, List.isEmpty_nil]
      rw [Device.shownVlans, Std.ExtTreeMap.toList_map, List.isEmpty_map,
        Std.ExtTreeMap.isEmpty_toList, Std.ExtTreeMap.isEmpty_iff] at nothing
      exact some_left nothing
    exact ⟨_, _, d.shownVlans.map Device.rowOf, d.shownVlans,
      Device.lines_tableText named shown_left, rfl, Device.readRow?_rows named,
      d.ascending_shownVlans, fun _ _ _ => Device.mem_shownVlans⟩

theorem vlan_table_is_faithful_lookalikes :
    let long := "isolated hosts of the second floor are primary"
    let vlans := (VlanDatabase.enter ∅ [20] (some long)).enter [7] none
    let d := { Device.factory "SW1" with vlans }
    let e := { Device.factory "SW2" with vlans := vlans.enter [7] (some "VLAN0007") }
    d.vlans ≠ e.vlans ∧ d.tableText = e.tableText ∧
      ∃ title rule rows, ∃ shown : List ShownVlan,
        Text.lines d.tableText = title :: rule :: rows ∧ rows.map Device.readRow? = shown.map some ∧
        (7, "VLAN0007", .normal) ∈ shown ∧ (20, long, .normal) ∈ shown := by
  intro long vlans d e
  have long_phrase : Text.IsPhrase long :=
    ⟨["isolated", "hosts", "of", "the", "second", "floor", "are", "primary"], by decide, by decide,
      by decide⟩
  have made_phrase : Text.IsPhrase "VLAN0007" := Text.isPhrase_of_isWord (by decide)
  have legible : vlans.Legible := by
    apply VlanDatabase.legible_enter _ (by decide) (by simp)
    exact VlanDatabase.legible_enter VlanDatabase.wellFormed_empty.legible (by decide)
      (by simpa using long_phrase)
  have legible' : e.vlans.Legible :=
    VlanDatabase.legible_enter legible (by decide) (by simpa using made_phrase)
  obtain ⟨same, lines⟩ :=
    vlan_table_is_faithful d e legible.namedByPhrases legible'.namedByPhrases
  have shown_alike (id : VlanId) :
      d.vlans[id]?.map (Vlan.shownAs id) = e.vlans[id]?.map (Vlan.shownAs id) := by
    by_cases seventh : id = 7
    · subst seventh
      decide
    · have kept : e.vlans[id]? = d.vlans[id]? := by
        change (Std.ExtTreeMap.insert vlans 7 _)[id]? = vlans[id]?
        rw [Std.ExtTreeMap.getElem?_insert, if_neg]
        rw [Std.LawfulEqCmp.compare_eq_iff_eq]
        exact fun same => seventh same.symm
      rw [kept]
  obtain ⟨title, rule, rows, shown, whole, -, read, -, listed⟩ := lines (by decide)
  have seventh : (7, "VLAN0007", .normal) ∈ shown :=
    (listed _ _ _).mpr ⟨{}, by decide, by decide, rfl⟩
  have twentieth : (20, long, .normal) ∈ shown :=
    (listed _ _ _).mpr ⟨{ name := some long }, by decide, rfl, rfl⟩
  exact ⟨by decide, same.mpr shown_alike, title, rule, rows, shown, whole, read, seventh,
    twentieth⟩

end VlanTrunking
