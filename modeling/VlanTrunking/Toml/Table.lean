/-! The tables of a TOML document while it is read. A key may be set once, and how a table came
about decides who may extend it: a header may complete a table that was only implied by longer
headers, a dotted key may only extend tables that dotted keys made, and a table written in braces is
closed. -/
namespace VlanTrunking.Toml

/-- How a table came about: by its own header, on the way to a longer header, on the way to the last
part of a dotted key, or in braces. -/
inductive Origin where
  | header
  | implied
  | dotted
  | braces
  deriving DecidableEq, Repr

/-- Numbers that are no integers, and dates and times, keep the text in which they are written. -/
inductive Item where
  | string (s : String)
  | integer (n : Int)
  | boolean (b : Bool)
  | float (text : List Char)
  | moment (text : List Char)
  | array (items : List Item)
  | table (origin : Origin) (entries : List (String × Item))
  | tables (elements : List (List (String × Item)))
  deriving Repr

abbrev Entries := List (String × Item)

structure Table where
  origin : Origin
  entries : Entries := []
  deriving Repr

namespace Table

def get? (t : Table) (key : String) : Option Item := t.entries.lookup key

def add (t : Table) (key : String) (v : Item) : Table :=
  { t with entries := t.entries ++ [(key, v)] }

def put (t : Table) (key : String) (v : Item) : Table :=
  { t with entries := t.entries.map fun (k, old) => (k, if k = key then v else old) }

def toItem (t : Table) : Item := .table t.origin t.entries

/-- The two kinds of path into a table: the parts of a header and those of a dotted key. -/
inductive Path where
  | header
  | dotted
  deriving DecidableEq, Repr

def Path.mayEnter : Path → Origin → Bool
  | header, origin => origin != .braces
  | dotted, origin => origin == .implied || origin == .dotted

def Path.makes : Path → Origin
  | header => .implied
  | dotted => .dotted

/-- Changes the table at the end of a path. An array of tables stands for its last element. -/
def alter (kind : Path) (f : Table → Option Table) : List String → Table → Option Table
  | [], t => f t
  | key :: path, t =>
    match t.get? key with
    | none => do return t.add key (← alter kind f path ⟨kind.makes, []⟩).toItem
    | some (.table origin entries) =>
      if kind.mayEnter origin then do return t.put key (← alter kind f path ⟨origin, entries⟩).toItem
      else none
    | some (.tables elements) => do
      let last ← alter kind f path ⟨.header, ← elements.getLast?⟩
      return t.put key (.tables (elements.dropLast ++ [last.entries]))
    | some _ => none

def setNew (key : String) (v : Item) (t : Table) : Option Table :=
  match t.get? key with
  | none => some (t.add key v)
  | some _ => none

/-- Sets a dotted key. A table that was made by other means may be entered on the way but not
extended. -/
def assign (path : List String) (v : Item) (t : Table) : Option Table := do
  let key ← path.getLast?
  let extend (inner : Table) : Option Table :=
    if path.dropLast.isEmpty = (inner.origin == .dotted) then none else setNew key v inner
  alter .dotted extend path.dropLast t

def open? (path : List String) (t : Table) : Option Table := do
  let key ← path.getLast?
  let complete (outer : Table) : Option Table :=
    match outer.get? key with
    | none => some (outer.add key (.table .header []))
    | some (.table .implied entries) => some (outer.put key (.table .header entries))
    | some _ => none
  alter .header complete path.dropLast t

def openElement? (path : List String) (t : Table) : Option Table := do
  let key ← path.getLast?
  let append (outer : Table) : Option Table :=
    match outer.get? key with
    | none => some (outer.add key (.tables [[]]))
    | some (.tables elements) => some (outer.put key (.tables (elements ++ [[]])))
    | some _ => none
  alter .header append path.dropLast t

end Table

end VlanTrunking.Toml
