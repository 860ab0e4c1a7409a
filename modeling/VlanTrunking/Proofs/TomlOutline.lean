import VlanTrunking.Proofs.TomlText

/-! Documents as they are outlined by their lines: keys at the top, then headers with the keys of
their sections. Where all names are distinct, every line adds to the end of the document what it
says, so a file is read as what its lines say in their order. -/
namespace VlanTrunking.Toml

/-- The keys before the first header, and the sections with their keys, each with their values. -/
structure Outline where
  top : Entries
  sections : List (String × Entries)

def entryLines (entries : Entries) : List Line := entries.map fun (key, v) => .entry [key] v

/-- A file of some lines, with any number of lines between them that say nothing. -/
inductive FileText : List Line → List Char → Prop
  | done : FileText [] []
  | blank {cs after below : List Char} {lines : List Line} :
      LineText .blank cs → LineEnd after below → FileText lines below → FileText lines (cs ++ after)
  | line {cs after below : List Char} {line : Line} {lines : List Line} :
      LineText line cs → LineEnd after below → FileText lines below →
      FileText (line :: lines) (cs ++ after)

namespace Document

variable {d d' : Document} {cs rest : List Char} {line : Line}

theorem addLines_of_line (read : line? cs = some (line, rest)) (added : d.addLine line = some d') :
    d.addLines cs = d'.addLines rest := by
  rw [addLines]
  split
  · next nothing =>
    subst nothing
    cases read
    cases added
    rw [addLines, dif_pos rfl]
  · split
    · next failed =>
      rw [read] at failed
      cases failed
    · next again =>
      rw [read] at again
      cases again
      rw [added]

theorem addLines_of_fileText {lines : List Line} (text : FileText lines cs)
    (added : lines.foldlM addLine d = some d') : d.addLines cs = some d' := by
  induction text generalizing d with
  | done =>
    cases added
    rw [addLines, dif_pos rfl]
  | blank text ends _ ih =>
    rw [addLines_of_line (line?_text text ends) rfl]
    exact ih added
  | line text ends _ ih =>
    obtain ⟨next, first, later⟩ := Option.bind_eq_some_iff.mp added
    rw [addLines_of_line (line?_text text ends) first]
    exact ih later

theorem unmarked_of_addLines (h : d.addLines cs = some d') (inner : List Char) :
    cs ≠ '\uFEFF' :: inner := by
  rintro rfl
  have no_line : line? ('\uFEFF' :: inner) = none := rfl
  rw [addLines, dif_neg (by simp)] at h
  split at h
  · cases h
  · next read =>
    rw [no_line] at read
    cases read

end Document

theorem read?_of_fileText {text : String} {lines : List Line} {d : Document}
    (written : FileText lines text.toList) (added : lines.foldlM Document.addLine {} = some d) :
    read? text = some d.root.entries := by
  have read := Document.addLines_of_fileText written added
  have unmarked := Document.unmarked_of_addLines read
  unfold read?
  split
  · next marked => exact absurd marked (unmarked _)
  · simp only [read, Option.map_some]

def Entries.names (entries : Entries) : List String := entries.map (·.1)

namespace Outline

variable (outline : Outline)

def lines : List Line :=
  entryLines outline.top ++
    outline.sections.flatMap fun part => .header [part.1] :: entryLines part.2

def sectionItem (entries : Entries) : Item := .table .header entries

def entries : Entries :=
  outline.top ++ outline.sections.map fun part => (part.1, sectionItem part.2)

structure Distinct : Prop where
  names : outline.entries.names.Nodup
  keys : ∀ part ∈ outline.sections, Entries.names part.2 |>.Nodup

end Outline

section Adding

variable {before entries : Entries} {name key : String} {v : Item}

theorem lookup_eq_none (fresh : name ∉ before.names) : before.lookup name = none := by
  refine List.lookup_eq_none_iff.mpr fun entry listed => ?_
  have other : name ≠ entry.1 := by
    rintro rfl
    exact fresh (List.mem_map_of_mem listed)
  simpa using other

theorem lookup_append_new (fresh : name ∉ before.names) :
    (before ++ [(name, v)]).lookup name = some v := by
  simp [List.lookup_append, lookup_eq_none fresh]

theorem put_append_new (fresh : name ∉ before.names) (origin : Origin) (old new : Item) :
    Table.put ⟨origin, before ++ [(name, old)]⟩ name new = ⟨origin, before ++ [(name, new)]⟩ := by
  have others : before.map (fun (k, v) => (k, if k = name then new else v)) = before := by
    refine (List.map_congr_left fun entry listed => ?_).trans (List.map_id _)
    have other : entry.1 ≠ name := by
      rintro rfl
      exact fresh (List.mem_map_of_mem listed)
    simp [other]
  simp only [Table.put, List.map_append, others]
  simp

theorem addLine_top (fresh : key ∉ before.names) :
    Document.addLine ⟨⟨.header, before⟩, []⟩ (.entry [key] v) =
      some ⟨⟨.header, before ++ [(key, v)]⟩, []⟩ := by
  simp [Document.addLine, Table.alter, Table.assign, Table.setNew, Table.get?, Table.add,
    lookup_eq_none fresh]

theorem addLine_header (fresh : name ∉ before.names) (current : List String) :
    Document.addLine ⟨⟨.header, before⟩, current⟩ (.header [name]) =
      some ⟨⟨.header, before ++ [(name, Outline.sectionItem [])]⟩, [name]⟩ := by
  simp [Document.addLine, Table.open?, Table.alter, Table.get?, Table.add, Outline.sectionItem,
    lookup_eq_none fresh]

theorem addLine_entry (fresh : name ∉ before.names) (new : key ∉ entries.names) :
    Document.addLine ⟨⟨.header, before ++ [(name, Outline.sectionItem entries)]⟩, [name]⟩
        (.entry [key] v) =
      some ⟨⟨.header, before ++ [(name, Outline.sectionItem (entries ++ [(key, v)]))]⟩,
        [name]⟩ := by
  have opened := lookup_append_new (v := Outline.sectionItem entries) fresh
  have assigned : Table.assign [key] v ⟨.header, entries⟩ =
      some ⟨.header, entries ++ [(key, v)]⟩ := by
    simp [Table.assign, Table.alter, Table.setNew, Table.get?, Table.add, lookup_eq_none new]
  simp only [Document.addLine, Table.alter, Table.get?, opened]
  simp [Outline.sectionItem, Table.Path.mayEnter, assigned, put_append_new fresh, Table.toItem]

theorem notMem_names {entry : String × Item} {later : Entries}
    (distinct : (Entries.names (before ++ entry :: later)).Nodup) : entry.1 ∉ before.names := by
  intro listed
  rw [Entries.names, List.map_append, List.nodup_append] at distinct
  exact distinct.2.2 _ listed _ (by simp) rfl

theorem addLines_entries (place : Entries → Document)
    (one : ∀ {entries : Entries} {key : String} {v : Item}, key ∉ entries.names →
      (place entries).addLine (.entry [key] v) = some (place (entries ++ [(key, v)])))
    {entries added : Entries} (distinct : (Entries.names (entries ++ added)).Nodup) :
    (entryLines added).foldlM Document.addLine (place entries) =
      some (place (entries ++ added)) := by
  induction added generalizing entries with
  | nil => simp [entryLines]
  | cons entry added ih =>
    have first := one (v := entry.2) (notMem_names distinct)
    have later : (entryLines added).foldlM Document.addLine (place (entries ++ [entry])) =
        some (place (entries ++ [entry] ++ added)) := ih (by simpa using distinct)
    simp only [entryLines, List.map_cons, List.foldlM_cons] at later ⊢
    rw [first]
    simpa using later

theorem addLines_sections {sections : List (String × Entries)} {current : List String}
    (names : (Entries.names (before ++
      sections.map fun part => (part.1, Outline.sectionItem part.2))).Nodup)
    (keys : ∀ part ∈ sections, (Entries.names part.2).Nodup) :
    ∃ last, (sections.flatMap fun part => .header [part.1] :: entryLines part.2).foldlM
        Document.addLine ⟨⟨.header, before⟩, current⟩ =
      some ⟨⟨.header, before ++ sections.map fun part => (part.1, Outline.sectionItem part.2)⟩,
        last⟩ := by
  induction sections generalizing before current with
  | nil => exact ⟨current, by simp⟩
  | cons part sections ih =>
    have fresh : part.1 ∉ before.names := notMem_names names
    have opened := addLine_header fresh current
    let here (entries : Entries) : Document :=
      ⟨⟨.header, before ++ [(part.1, Outline.sectionItem entries)]⟩, [part.1]⟩
    have distinct : (Entries.names ([] ++ part.2)).Nodup := keys part (by simp)
    have filled : (entryLines part.2).foldlM Document.addLine (here []) = some (here part.2) :=
      addLines_entries here (addLine_entry fresh) distinct
    have other_names : (Entries.names ((before ++ [(part.1, Outline.sectionItem part.2)]) ++
        sections.map fun part => (part.1, Outline.sectionItem part.2))).Nodup := by
      simpa using names
    obtain ⟨last, later⟩ := ih other_names fun other listed => keys other (by simp [listed])
    refine ⟨last, ?_⟩
    rw [List.flatMap_cons, List.cons_append, List.foldlM_cons, opened]
    simp only [Option.bind_eq_bind, Option.bind_some, List.foldlM_append]
    rw [show (entryLines part.2).foldlM Document.addLine _ = some (here part.2) from filled]
    simpa using later

end Adding

namespace Outline

variable {outline : Outline}

theorem read?_eq {text : String} (distinct : outline.Distinct)
    (written : FileText outline.lines text.toList) : read? text = some outline.entries := by
  have top_names : (Entries.names ([] ++ outline.top)).Nodup := by
    have names := distinct.names
    rw [entries, Entries.names, List.map_append] at names
    exact (List.nodup_append.mp names).1
  have top : (entryLines outline.top).foldlM Document.addLine {} =
      some ⟨⟨.header, outline.top⟩, []⟩ :=
    addLines_entries (fun entries => ⟨⟨.header, entries⟩, []⟩) addLine_top top_names
  obtain ⟨last, sections⟩ := addLines_sections distinct.names distinct.keys
  refine read?_of_fileText written (d := ⟨⟨.header, outline.entries⟩, last⟩) ?_
  rw [lines, List.foldlM_append, top]
  exact sections

end Outline

end VlanTrunking.Toml
