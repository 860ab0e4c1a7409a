import Mathlib.Data.List.Basic
import VlanTrunking.Json.Value

/-! Values as sequences of tokens. A value is read from its own tokens and from no others: the
reader gets through them to this value, whatever containers are open around it, and at every point
the tokens that it has seen can be told from the open containers and from what it expects. -/
namespace VlanTrunking

namespace Json

mutual

def tokensOf : Json → List Token
  | scalar s => [.scalar s]
  | array items => .openBracket :: (tokensOfItems items ++ [.closeBracket])
  | object members => .openBrace :: (tokensOfMembers members ++ [.closeBrace])

def tokensOfItems : List Json → List Token
  | [] => []
  | [v] => tokensOf v
  | v :: next :: rest => tokensOf v ++ .comma :: tokensOfItems (next :: rest)

def tokensOfMembers : List (List TextUnit × Json) → List Token
  | [] => []
  | [(key, v)] => .scalar (.string key) :: .colon :: tokensOf v
  | (key, v) :: next :: rest =>
    .scalar (.string key) :: .colon :: (tokensOf v ++ .comma :: tokensOfMembers (next :: rest))

end

section Reading

theorem tokensOfItems_begins (v : Json) (rest : List Json) :
    ∃ t more, t ≠ Token.closeBracket ∧ tokensOfItems (v :: rest) = t :: more := by
  have first : ∃ t more, t ≠ Token.closeBracket ∧ tokensOf v = t :: more := by
    cases v with
    | scalar s => exact ⟨.scalar s, [], by simp, by rw [tokensOf]⟩
    | array items => exact ⟨.openBracket, _, by simp, by rw [tokensOf]⟩
    | object members => exact ⟨.openBrace, _, by simp, by rw [tokensOf]⟩
  obtain ⟨t, more, other, begins⟩ := first
  cases rest with
  | nil => exact ⟨t, more, other, by rw [tokensOfItems, begins]⟩
  | cons next rest => exact ⟨t, _, other, by rw [tokensOfItems, begins, List.cons_append]⟩

theorem step_firstItem {t : Token} (other : t ≠ .closeBracket) (stack : List Frame) :
    Reader.step ⟨stack, .firstItem⟩ t = Reader.step ⟨.array [] :: stack, .value⟩ t := by
  cases t with
  | closeBracket => exact absurd rfl other
  | _ => rfl

mutual

theorem read_tokensOf (stack : List Frame) : ∀ v : Json,
    (tokensOf v).foldlM Reader.step ⟨stack, .value⟩ = some ⟨stack, .next v⟩
  | .scalar s => rfl
  | .array [] => rfl
  | .array (v :: rest) => by
    have inside := read_tokensOfItems stack [] (v :: rest) (List.cons_ne_nil v rest)
    obtain ⟨t, more, other, begins⟩ := tokensOfItems_begins v rest
    have opened : Reader.step ⟨stack, .value⟩ .openBracket = some ⟨stack, .firstItem⟩ := rfl
    rw [begins, List.cons_append, List.foldlM_cons, ← step_firstItem other] at inside
    rw [tokensOf, begins, List.foldlM_cons, opened]
    exact inside
  | .object [] => rfl
  | .object ((key, v) :: rest) => by
    have inside := read_tokensOfMembers stack [] ((key, v) :: rest) (List.cons_ne_nil _ rest)
    have opened : Reader.step ⟨stack, .value⟩ .openBrace = some ⟨stack, .firstKey⟩ := rfl
    rw [tokensOf, List.foldlM_cons, opened]
    cases rest <;> exact inside

theorem read_tokensOfItems (stack : List Frame) (before : List Json) :
    ∀ items : List Json, items ≠ [] →
      (tokensOfItems items ++ [Token.closeBracket]).foldlM Reader.step
        ⟨.array before :: stack, .value⟩ = some ⟨stack, .next (.array (before.reverse ++ items))⟩
  | [], some_left => absurd rfl some_left
  | [v], _ => by
    rw [tokensOfItems, List.foldlM_append, read_tokensOf _ v]
    simp [Reader.step, Reader.afterValue]
  | v :: next :: rest, _ => by
    have later := read_tokensOfItems stack (v :: before) (next :: rest) (List.cons_ne_nil next rest)
    rw [tokensOfItems, List.append_assoc, List.foldlM_append, read_tokensOf _ v]
    simpa [Reader.step, Reader.afterValue] using later

theorem read_tokensOfMembers (stack : List Frame) (before : List (List TextUnit × Json)) :
    ∀ members : List (List TextUnit × Json), members ≠ [] →
      (tokensOfMembers members ++ [Token.closeBrace]).foldlM Reader.step ⟨stack, .key before⟩ =
        some ⟨stack, .next (.object (before.reverse ++ members))⟩
  | [], some_left => absurd rfl some_left
  | [(key, v)], _ => by
    have value := read_tokensOf (.object before key :: stack) v
    simp [tokensOfMembers, Reader.step, value, Reader.afterValue]
  | (key, v) :: next :: rest, _ => by
    have value := read_tokensOf (.object before key :: stack) v
    have later := read_tokensOfMembers stack ((key, v) :: before) (next :: rest)
      (List.cons_ne_nil next rest)
    simpa [tokensOfMembers, Reader.step, value, Reader.afterValue] using later

end

end Reading

section Seeing

theorem tokensOfItems_concat (items : List Json) (v : Json) :
    tokensOfItems (items ++ [v]) =
      (items.flatMap fun w => tokensOf w ++ [.comma]) ++ tokensOf v := by
  induction items with
  | nil => rw [List.nil_append, tokensOfItems]; rfl
  | cons w items ih =>
    cases items with
    | nil => simp [tokensOfItems]
    | cons next rest => simpa [tokensOfItems] using ih

theorem tokensOfMembers_concat (members : List (List TextUnit × Json)) (key : List TextUnit)
    (v : Json) : tokensOfMembers (members ++ [(key, v)]) =
      (members.flatMap fun (k, w) => .scalar (.string k) :: .colon :: (tokensOf w ++ [.comma])) ++
        .scalar (.string key) :: .colon :: tokensOf v := by
  induction members with
  | nil => rw [List.nil_append, tokensOfMembers]; rfl
  | cons member members ih =>
    cases members with
    | nil => simp [tokensOfMembers]
    | cons next rest => simpa [tokensOfMembers] using ih

def openItems (before : List Json) : List Token :=
  .openBracket :: before.reverse.flatMap fun v => tokensOf v ++ [.comma]

def openMembers (before : List (List TextUnit × Json)) : List Token :=
  .openBrace :: before.reverse.flatMap fun (key, v) =>
    .scalar (.string key) :: .colon :: (tokensOf v ++ [.comma])

namespace Reader

def seenInFrame : Frame → List Token
  | .array before => openItems before
  | .object before key => openMembers before ++ [.scalar (.string key), .colon]

def seenLast : Expecting → List Token
  | .value => []
  | .firstItem => [.openBracket]
  | .firstKey => [.openBrace]
  | .key before => openMembers before
  | .colon before key => openMembers before ++ [.scalar (.string key)]
  | .next v => tokensOf v

/-- The tokens that bring the reader where it is. -/
def seen (r : Reader) : List Token :=
  r.stack.reverse.flatMap seenInFrame ++ seenLast r.expecting

theorem seen_startValue {stack : List Frame} {t : Token} {r : Reader}
    (h : startValue stack t = some r) : r.seen = stack.reverse.flatMap seenInFrame ++ [t] := by
  unfold startValue at h
  split at h <;> cases h <;> simp [seen, seenLast, tokensOf]

theorem seen_afterValue {v : Json} {stack : List Frame} {t : Token} {r : Reader}
    (h : afterValue v stack t = some r) :
    r.seen = stack.reverse.flatMap seenInFrame ++ tokensOf v ++ [t] := by
  unfold afterValue at h
  split at h <;> cases h
  · simp [seen, seenInFrame, seenLast, openItems]
  · simp [seen, seenInFrame, seenLast, openItems, tokensOf, tokensOfItems_concat]
  · simp [seen, seenInFrame, seenLast, openMembers]
  · simp [seen, seenInFrame, seenLast, openMembers, tokensOf, tokensOfMembers_concat]

theorem seen_step {r r' : Reader} {t : Token} (h : r.step t = some r') :
    r'.seen = r.seen ++ [t] := by
  obtain ⟨stack, expecting⟩ := r
  unfold step at h
  dsimp only at h
  split at h
  · simpa [seen, seenLast] using seen_startValue h
  · cases h
    simp [seen, seenLast, tokensOf, tokensOfItems]
  · simpa [seen, seenLast, seenInFrame, openItems] using seen_startValue h
  · cases h
    simp [seen, seenLast, tokensOf, tokensOfMembers]
  · cases h
    simp [seen, seenLast, openMembers]
  · cases h
    simp [seen, seenLast, openMembers]
  · cases h
    simp [seen, seenLast, seenInFrame]
  · simpa [seen, seenLast] using seen_afterValue h
  · cases h

theorem seen_run {r r' : Reader} {ts : List Token} (h : ts.foldlM step r = some r') :
    r'.seen = r.seen ++ ts := by
  induction ts generalizing r with
  | nil => cases h; simp
  | cons t ts ih =>
    obtain ⟨next, first, later⟩ := Option.bind_eq_some_iff.mp h
    rw [ih later, seen_step first, List.append_assoc, List.singleton_append]

end Reader

end Seeing

theorem ofTokens?_eq_some_iff {ts : List Token} {v : Json} :
    ofTokens? ts = some v ↔ ts = tokensOf v := by
  constructor
  · intro read
    obtain ⟨r, run, finished⟩ := Option.bind_eq_some_iff.mp read
    have seen := Reader.seen_run run
    unfold Reader.finish at finished
    split at finished
    · next outside complete =>
      cases finished
      simpa [Reader.seen, Reader.seenLast, outside, complete] using seen.symm
    · cases finished
  · rintro rfl
    rw [ofTokens?, read_tokensOf [] v]
    rfl

end Json

end VlanTrunking
