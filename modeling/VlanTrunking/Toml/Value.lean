import VlanTrunking.Toml.Scalar

/-! Values with their parts. The containers that are still open stand on a stack, so a value is read
by one loop that gets through the text. -/
namespace VlanTrunking.Toml

/-- An open container: an array with its items, latest first, or a table in braces with the key that
waits for its value. -/
inductive Frame where
  | array (before : List Item)
  | braces (before : Table) (key : List String)

/-- The open containers, innermost first, and the value that was completed last; without one a value
must come next. -/
structure Progress where
  stack : List Frame := []
  complete : Option Item := none

namespace Progress

def awaitKey (stack : List Frame) (before : Table) (cs : List Char) :
    Option (Progress × List Char) := do
  let (key, rest) ← key? cs
  match rest with
  | '=' :: rest => return (⟨.braces before key :: stack, none⟩, skipSpaces rest)
  | _ => none

def begin (stack : List Frame) : List Char → Option (Progress × List Char)
  | '[' :: cs =>
    if nestingLimit ≤ stack.length then none
    else
      match skipLayout false cs with
      | ']' :: rest => some (⟨stack, some (.array [])⟩, rest)
      | rest => some (⟨.array [] :: stack, none⟩, rest)
  | '{' :: cs =>
    if nestingLimit ≤ stack.length then none
    else
      match skipSpaces cs with
      | '}' :: rest => some (⟨stack, some (.table .braces [])⟩, rest)
      | rest => awaitKey stack ⟨.header, []⟩ rest
  | cs => (scalar? cs).map fun (v, rest) => (⟨stack, some v⟩, rest)

def closeArray (stack : List Frame) (before : List Item) : Progress :=
  ⟨stack, some (.array before.reverse)⟩

/-- After a complete value the innermost container goes on or closes. A comma may stand before the
end of an array, but not before the end of a table. -/
def proceed (v : Item) (cs : List Char) : List Frame → Option (Progress × List Char)
  | [] => none
  | .array before :: stack =>
    match skipLayout false cs with
    | ']' :: rest => some (closeArray stack (v :: before), rest)
    | ',' :: rest =>
      match skipLayout false rest with
      | ']' :: rest => some (closeArray stack (v :: before), rest)
      | rest => some (⟨.array (v :: before) :: stack, none⟩, rest)
    | _ => none
  | .braces before key :: stack => do
    let t ← before.assign key v
    match skipSpaces cs with
    | '}' :: rest => return (⟨stack, some (.table .braces t.entries)⟩, rest)
    | ',' :: rest => awaitKey stack t rest
    | _ => none

def step (p : Progress) (cs : List Char) : Option (Progress × List Char) :=
  match p.complete with
  | none => begin p.stack cs
  | some v => proceed v cs p.stack

theorem length_of_awaitKey {stack : List Frame} {before : Table} {cs rest : List Char}
    {p : Progress} (h : awaitKey stack before cs = some (p, rest)) : rest.length < cs.length := by
  simp only [awaitKey, Option.bind_eq_bind, Option.bind_eq_some_iff, Prod.exists] at h
  obtain ⟨key, rest', hkey, h⟩ := h
  have hrest := length_of_key? hkey
  split at h
  · next inner =>
    cases h
    have hle := length_skipSpaces_le inner
    rw [List.length_cons] at hrest
    omega
  · cases h

theorem length_of_begin {stack : List Frame} {cs rest : List Char} {p : Progress}
    (h : begin stack cs = some (p, rest)) : rest.length < cs.length := by
  unfold begin at h
  split at h
  · next inner =>
    have hle := length_skipLayout_le false inner
    split at h
    · cases h
    · split at h <;> cases h <;> simp_all only [List.length_cons] <;> omega
  · next inner =>
    have hle := length_skipSpaces_le inner
    split at h
    · cases h
    · split at h
      · cases h
        simp_all only [List.length_cons]
        omega
      · have hkey := length_of_awaitKey h
        simp only [List.length_cons]
        omega
  · obtain ⟨⟨v, rest'⟩, hv, heq⟩ := Option.map_eq_some_iff.mp h
    cases heq
    exact length_of_scalar? hv

theorem length_of_proceed {v : Item} {cs rest : List Char} {stack : List Frame} {p : Progress}
    (h : proceed v cs stack = some (p, rest)) : rest.length < cs.length := by
  unfold proceed at h
  split at h
  · cases h
  · have hle := length_skipLayout_le false cs
    split at h
    · cases h
      simp_all only [List.length_cons]
      omega
    · next inner heq =>
      have hle' := length_skipLayout_le false inner
      rw [heq, List.length_cons] at hle
      split at h
      · next heq' =>
        cases h
        rw [heq', List.length_cons] at hle'
        omega
      · cases h
        omega
    · cases h
  · have hle := length_skipSpaces_le cs
    simp only [Option.bind_eq_bind, Option.bind_eq_some_iff] at h
    obtain ⟨t, _, h⟩ := h
    split at h
    · cases h
      simp_all only [List.length_cons]
      omega
    · have hkey := length_of_awaitKey h
      simp_all only [List.length_cons]
      omega
    · cases h

theorem length_of_step {p p' : Progress} {cs rest : List Char}
    (h : p.step cs = some (p', rest)) : rest.length < cs.length := by
  unfold step at h
  split at h
  · exact length_of_begin h
  · exact length_of_proceed h

def run (p : Progress) (cs : List Char) : Option (Item × List Char) :=
  match p.stack, p.complete with
  | [], some v => some (v, cs)
  | _, _ =>
    match _h : p.step cs with
    | none => none
    | some (p, rest) => p.run rest
termination_by cs.length
decreasing_by exact length_of_step _h

theorem length_of_run {p : Progress} {cs rest : List Char} {v : Item}
    (h : p.run cs = some (v, rest)) : rest.length ≤ cs.length := by
  fun_induction run p cs with
  | case1 => cases h; exact Nat.le_refl _
  | case2 => cases h
  | case3 p cs _ _ hstep _ ih => exact Nat.le_trans (ih h) (Nat.le_of_lt (length_of_step hstep))

end Progress

def value? (cs : List Char) : Option (Item × List Char) := Progress.run {} cs

theorem length_of_value? {cs rest : List Char} {v : Item} (h : value? cs = some (v, rest)) :
    rest.length ≤ cs.length :=
  Progress.length_of_run h

end VlanTrunking.Toml
