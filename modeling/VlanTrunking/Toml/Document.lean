import VlanTrunking.Toml.Value

/-! TOML documents, read line by line: headers say which table the keys below them belong to. -/
namespace VlanTrunking.Toml

inductive Line where
  | blank
  | header (path : List String)
  | element (path : List String)
  | entry (key : List String) (v : Item)

/-- Reads a line; a value may take up several lines of the text. -/
def line? (cs : List Char) : Option (Line × List Char) :=
  match skipSpaces cs with
  | '[' :: '[' :: cs => do
    match ← key? cs with
    | (path, ']' :: ']' :: rest) => return (.element path, ← endOfLine? rest)
    | _ => none
  | '[' :: cs => do
    match ← key? cs with
    | (path, ']' :: rest) => return (.header path, ← endOfLine? rest)
    | _ => none
  | cs =>
    match endOfLine? cs with
    | some rest => some (.blank, rest)
    | none => do
      match ← key? cs with
      | (key, '=' :: rest) =>
        let (v, rest) ← value? (skipSpaces rest)
        return (.entry key v, ← endOfLine? rest)
      | _ => none

section Length

variable {cs behind after rest : List Char} {path : List String}

theorem length_behind_key (hkey : key? cs = some (path, behind))
    (hafter : after.length ≤ behind.length) (hend : endOfLine? after = some rest) :
    rest.length < cs.length :=
  Nat.lt_of_le_of_lt (Nat.le_trans (length_of_endOfLine?_le hend) hafter) (length_of_key? hkey)

theorem length_of_header (hcs : skipSpaces cs = '[' :: behind)
    (hkey : key? behind = some (path, ']' :: after)) (hend : endOfLine? after = some rest) :
    rest.length < cs.length := by
  have hinner : rest.length < behind.length := length_behind_key hkey (Nat.le_succ _) hend
  have hle : (skipSpaces cs).length ≤ cs.length := length_skipSpaces_le cs
  rw [hcs, List.length_cons] at hle
  omega

theorem length_of_element (hcs : skipSpaces cs = '[' :: '[' :: behind)
    (hkey : key? behind = some (path, ']' :: ']' :: after)) (hend : endOfLine? after = some rest) :
    rest.length < cs.length := by
  have hafter : after.length ≤ (']' :: ']' :: after).length := Nat.le_add_right _ 2
  have hinner : rest.length < behind.length := length_behind_key hkey hafter hend
  have hle : (skipSpaces cs).length ≤ cs.length := length_skipSpaces_le cs
  rw [hcs, List.length_cons, List.length_cons] at hle
  omega

theorem length_of_blank (hcs : cs ≠ []) (hend : endOfLine? (skipSpaces cs) = some rest) :
    rest.length < cs.length := by
  by_cases hnil : skipSpaces cs = []
  · rw [hnil] at hend
    cases hend
    exact List.length_pos_iff.mpr hcs
  · exact Nat.lt_of_lt_of_le (length_of_endOfLine? hend hnil) (length_skipSpaces_le cs)

theorem length_of_entry {v : Item} (hkey : key? (skipSpaces cs) = some (path, '=' :: behind))
    (hvalue : value? (skipSpaces behind) = some (v, after)) (hend : endOfLine? after = some rest) :
    rest.length < cs.length := by
  have hafter : after.length ≤ ('=' :: behind).length :=
    calc after.length
      _ ≤ (skipSpaces behind).length := length_of_value? hvalue
      _ ≤ behind.length := length_skipSpaces_le behind
      _ ≤ ('=' :: behind).length := Nat.le_succ _
  exact Nat.lt_of_lt_of_le (length_behind_key hkey hafter hend) (length_skipSpaces_le cs)

theorem length_of_line? {line : Line} (h : line? cs = some (line, rest)) (hcs : cs ≠ []) :
    rest.length < cs.length := by
  unfold line? at h
  split at h
  · next behind hbegin =>
    obtain ⟨⟨path, _⟩, hkey, h⟩ := Option.bind_eq_some_iff.mp h
    split at h
    · next same =>
      cases same
      obtain ⟨_, hend, h⟩ := Option.bind_eq_some_iff.mp h
      cases h
      exact length_of_element hbegin hkey hend
    · cases h
  · next behind _ hbegin =>
    obtain ⟨⟨path, _⟩, hkey, h⟩ := Option.bind_eq_some_iff.mp h
    split at h
    · next same =>
      cases same
      obtain ⟨_, hend, h⟩ := Option.bind_eq_some_iff.mp h
      cases h
      exact length_of_header hbegin hkey hend
    · cases h
  · split at h
    · next hend =>
      cases h
      exact length_of_blank hcs hend
    · obtain ⟨⟨path, _⟩, hkey, h⟩ := Option.bind_eq_some_iff.mp h
      split at h
      · next same =>
        cases same
        obtain ⟨⟨v, after⟩, hvalue, h⟩ := Option.bind_eq_some_iff.mp h
        obtain ⟨_, hend, h⟩ := Option.bind_eq_some_iff.mp h
        cases h
        exact length_of_entry hkey hvalue hend
      · cases h

end Length

/-- The document so far and the path of the table that keys belong to. -/
structure Document where
  root : Table := ⟨.header, []⟩
  current : List String := []

namespace Document

def addLine (d : Document) : Line → Option Document
  | .blank => some d
  | .header path => do return ⟨← d.root.open? path, path⟩
  | .element path => do return ⟨← d.root.openElement? path, path⟩
  | .entry key v => do
    return { d with root := ← d.root.alter .header (Table.assign key v) d.current }

def addLines (d : Document) (cs : List Char) : Option Document :=
  if _hcs : cs = [] then some d
  else
    match _h : line? cs with
    | none => none
    | some (line, rest) =>
      match d.addLine line with
      | none => none
      | some d => d.addLines rest
termination_by cs.length
decreasing_by exact length_of_line? _h _hcs

end Document

def read? (text : String) : Option Entries :=
  let cs := match text.toList with
    | '\uFEFF' :: cs => cs
    | cs => cs
  (Document.addLines {} cs).map fun d => d.root.entries

end VlanTrunking.Toml
