import VlanTrunking.Proofs.JsonGrammar

/-! JSON texts as they are written, read back. A quoted text is read as one token, whose units
mean the text again; texts that are read as tokens can be put one after the other; and the tokens of
members, with commas between them and braces around them, are read as an object with just these
members in this order. -/
namespace VlanTrunking

namespace Json

/-- The unit that a character is written as: a code unit if it is a control character without a
short escape, and the character itself otherwise. -/
def unitOf (c : Char) : TextUnit :=
  if c.toNat < 0x20 ∧ c ∉ shortEscapes.map (·.2) then .code c.toNat else .char c

def unitsOf (s : String) : List TextUnit := s.toList.map unitOf

theorem decodeUnits_unitOf (c : Char) (units : List TextUnit) :
    decodeUnits (unitOf c :: units) = (decodeUnits units).map (c :: ·) := by
  unfold unitOf
  split
  · next control =>
    have low : c.toNat < 0x20 := control.1
    have leading : ¬IsLeading c.toNat := fun h => absurd h.1 (by omega)
    have trailing : ¬IsTrailing c.toNat := fun h => absurd h.1 (by omega)
    conv_lhs => unfold decodeUnits
    rw [if_neg leading, if_neg trailing, Char.ofNat_toNat]
  · rfl

theorem textOf?_unitsOf (s : String) : textOf? (unitsOf s) = some s := by
  have decoded : ∀ cs : List Char, decodeUnits (cs.map unitOf) = some cs := by
    intro cs
    induction cs with
    | nil => rfl
    | cons c cs ih => rw [List.map_cons, decodeUnits_unitOf, ih, Option.map_some]
  rw [textOf?, unitsOf, decoded, Option.map_some, String.ofList_toList]

theorem unitsText_escapeChar (c : Char) {units : List TextUnit} {cs : List Char}
    (rest : UnitsText units cs) : UnitsText (unitOf c :: units) (escapeChar c ++ cs) := by
  unfold escapeChar
  split
  case h_8 quote backslash _ _ _ _ _ =>
    by_cases control : c.toNat < 0x20
    · have unit : unitOf c = .code c.toNat := by
        have slash : c ≠ '/' := by
          rintro rfl
          exact absurd control (by decide)
        simp_all [unitOf, shortEscapes]
      have small : c.toNat % Nat.pow 16 4 = c.toNat :=
        Nat.mod_eq_of_lt (Nat.lt_trans control (by decide))
      have value := Text.readHexDigits_hexDigits 4 c.toNat
      rw [small] at value
      rw [if_pos control, unit]
      exact .numbered (Text.length_hexDigits 4 _) value rest
    · have unit : unitOf c = .char c := by simp [unitOf, control]
      rw [if_neg control, unit]
      exact .plain quote backslash (Nat.not_lt.mp control) rest
  all_goals exact .escaped rfl rest

theorem unitsText_escaped (cs : List Char) :
    UnitsText (cs.map unitOf) (cs.flatMap escapeChar) := by
  induction cs with
  | nil => exact .done
  | cons c cs ih => exact unitsText_escapeChar c ih

def Spells (text : String) (tokens : List Token) : Prop :=
  ∀ before, text.toList.foldlM Lexer.step ⟨before, .between⟩ =
    some ⟨tokens.reverse ++ before, .between⟩

theorem Spells.append {text text' : String} {tokens tokens' : List Token}
    (first : Spells text tokens) (second : Spells text' tokens') :
    Spells (text ++ text') (tokens ++ tokens') := by
  intro before
  rw [String.toList_append, List.foldlM_append, first before]
  simpa using second _

theorem spells_quote (s : String) : Spells (quote s) [.scalar (.string (unitsOf s))] := by
  intro before
  rw [quote, String.toList_ofList]
  exact Lexer.run_string (unitsText_escaped s.toList)

theorem tokens?_of_spells {text : String} {tokens : List Token} (h : Spells text tokens) :
    tokens? text.toList = some tokens := by
  have whole : text.toList.foldlM Lexer.step {} = some ⟨tokens.reverse ++ [], .between⟩ := h []
  simp [tokens?, whole, Lexer.finish]

def memberTokens : List (String × Scalar) → List Token
  | [] => []
  | [(key, v)] => [.scalar (.string (unitsOf key)), .colon, .scalar v]
  | (key, v) :: rest =>
    .scalar (.string (unitsOf key)) :: .colon :: .scalar v :: .comma :: memberTokens rest

def objectTokens (members : List (String × Scalar)) : List Token :=
  .openBrace :: (memberTokens members ++ [.closeBrace])

def writtenMember (member : String × Scalar) : List TextUnit × Json :=
  (unitsOf member.1, .scalar member.2)

theorem tokensOf_written (members : List (String × Scalar)) :
    tokensOf (.object (members.map writtenMember)) = objectTokens members := by
  have inside : tokensOfMembers (members.map writtenMember) = memberTokens members := by
    induction members with
    | nil => rfl
    | cons member rest ih =>
      cases rest <;>
        simp_all [tokensOfMembers, memberTokens, writtenMember, tokensOf]
  rw [tokensOf, inside]
  rfl

theorem ofTokens?_objectTokens (members : List (String × Scalar)) :
    ofTokens? (objectTokens members) = some (.object (members.map writtenMember)) :=
  ofTokens?_eq_some_iff.mpr (tokensOf_written members).symm

theorem read?_of_spells {text : String} {members : List (String × Scalar)}
    (h : Spells text (objectTokens members)) :
    read? text = some (.object (members.map writtenMember)) := by
  rw [read?, tokens?_of_spells h, Option.bind_some, ofTokens?_objectTokens]

end Json

end VlanTrunking
