import VlanTrunking.Proofs.ListGrammar

/-! The id of a private VLAN. It is given as a list of VLANs, and what decides is the meaning of the
list: every part has to stand for the same id, as that id alone or as a run from it to itself. So a
list without commas and dashes is taken exactly if it is an id, and no list with two ids is taken,
but an id may be repeated. -/
namespace VlanTrunking

namespace IdList

structure IsId (text : String) (id : VlanId) : Prop where
  numeral : Text.Numeral text.toList id
  assignable : id.Assignable

def Repeats (text : String) (id : VlanId) : Prop := ∀ part ∈ parts text, SpanText part ⟨id, id⟩

section

variable {text : String} {id : VlanId}

theorem SpanText.ordered {part : List Char} {span : IdSpan} (means : SpanText part span) :
    span.first ≤ span.last :=
  (proper_of_readSpan (readSpan_eq_some_iff.mpr means)).ordered

theorem SpanText.unique {part : List Char} {span other : IdSpan} (means : SpanText part span)
    (means' : SpanText part other) : span = other := by
  rw [← readSpan_eq_some_iff] at means means'
  exact Option.some.inj (means.symm.trans means')

theorem exists_part (text : String) : ∃ part, part ∈ parts text :=
  List.exists_mem_of_ne_nil _ (List.splitOn_ne_nil _ _)

theorem means_of_repeats (repeats : Repeats text id) (other : VlanId) :
    Means text other ↔ other = id := by
  constructor
  · rintro ⟨part, listed, span, means, low, high⟩
    obtain rfl := means.unique (repeats part listed)
    exact Nat.le_antisymm high low
  · rintro rfl
    obtain ⟨part, listed⟩ := exists_part text
    exact ⟨part, listed, _, repeats part listed, Nat.le_refl _, Nat.le_refl _⟩

theorem repeats_of_means (grammatical : Grammatical text)
    (one : ∀ other, Means text other → other = id) : Repeats text id := by
  intro part listed
  obtain ⟨⟨low, high⟩, means⟩ := grammatical part listed
  obtain rfl : low = id := one low ⟨part, listed, _, means, Nat.le_refl _, means.ordered⟩
  obtain rfl : high = low := one high ⟨part, listed, _, means, means.ordered, Nat.le_refl _⟩
  exact means

theorem read?_eq_singleton_iff : read? text = some [id] ↔ Repeats text id := by
  constructor
  · intro read
    apply repeats_of_means (exists_read?_iff.mp ⟨_, read⟩)
    intro other means
    simpa using (mem_of_read? read other).mpr means
  · intro repeats
    have grammatical : Grammatical text := fun part listed => ⟨_, repeats part listed⟩
    obtain ⟨ids, read⟩ := exists_read?_iff.mpr grammatical
    have members : ∀ other, other ∈ ids ↔ other ∈ [id] := by
      intro other
      rw [mem_of_read? read, means_of_repeats repeats, List.mem_singleton]
    have alone : ids = [id] :=
      (canonical_of_read? read).ascending.eq_of_mem_iff (List.pairwise_singleton _ _) members
    rw [read, alone]

theorem parts_of_no_comma (no_comma : ',' ∉ text.toList) : parts text = [text.toList] := by
  rw [parts, List.splitOn_eq_singleton no_comma]

theorem IsId.no_comma (token : IsId text id) : ',' ∉ text.toList := by
  intro listed
  rcases token.numeral.mem listed with plus | digit
  · exact absurd plus (by decide)
  · exact absurd digit (by decide)

theorem IsId.no_dash (token : IsId text id) : '-' ∉ text.toList :=
  token.numeral.no_dash (Text.padded_refl _)

theorem IsId.repeats (token : IsId text id) : Repeats text id := by
  intro part listed
  rw [parts_of_no_comma token.no_comma, List.mem_singleton] at listed
  subst listed
  exact .single ⟨⟨_, token.numeral, Text.padded_refl _⟩, token.assignable⟩

theorem isId_of_repeats (solid : ∀ c ∈ text.toList, Text.isBlank c = false)
    (no_comma : ',' ∉ text.toList) (no_dash : '-' ∉ text.toList) (repeats : Repeats text id) :
    IsId text id := by
  have means : SpanText text.toList ⟨id, id⟩ := by
    apply repeats
    rw [parts_of_no_comma no_comma]
    exact List.mem_singleton_self _
  rw [← readSpan_eq_some_iff, readSpan_of_no_dash no_dash] at means
  obtain ⟨other, read, same⟩ := Option.map_eq_some_iff.mp means
  obtain rfl : other = id := congrArg IdSpan.first same
  obtain ⟨⟨cs, numeral, padded⟩, assignable⟩ := readId_eq_some_iff.mp read
  have whole : text.toList = cs := by
    rw [← numeral.trimBlanks_eq padded, Text.trimBlanks_of_solid solid]
  rw [← whole] at numeral
  exact ⟨numeral, assignable⟩

end

end IdList

theorem IdList.read_eq_singleton_iff {text : String} {id : VlanId} :
    IdList.read text = .ok [id] ↔ IdList.Repeats text id := by
  rw [IdList.read_eq_ok_iff, IdList.read?_eq_singleton_iff]

namespace ConfigCommand

section Roles

variable {role : String} {args : List String} {kind : VlanKind}

theorem ofPrivateVlanWords_of_repeats {id : VlanId} (private_role : kind ≠ .normal)
    (named : Text.lower role = kind.name) (some_left : args ≠ [])
    (repeats : IdList.Repeats (String.join args) id) :
    ofPrivateVlanWords (role :: args) = .ok (setPrivateVlan id kind) :=
  ofPrivateVlanWords_of_one private_role named some_left (IdList.read_eq_singleton_iff.mpr repeats)

theorem ofPrivateVlanWords_of_not_repeats (private_role : kind ≠ .normal)
    (named : Text.lower role = kind.name) (some_left : args ≠ [])
    (mixed : ¬∃ id, IdList.Repeats (String.join args) id) :
    ofPrivateVlanWords (role :: args) = .error (.invalidVlanList (String.join args)) := by
  have none_one : ∀ id, IdList.read (String.join args) = .ok [id] → False := by
    intro id one
    exact mixed ⟨id, IdList.read_eq_singleton_iff.mp one⟩
  simp [ofPrivateVlanWords, named, find?_privateRoles private_role, some_left]

theorem isBlank_join {line : String} (listed : ∀ w ∈ args, w ∈ Text.words line) :
    ∀ c ∈ (String.join args).toList, Text.isBlank c = false := by
  intro c inside
  rw [String.toList_join, List.mem_flatMap] at inside
  obtain ⟨w, in_args, inside⟩ := inside
  exact (Text.isWord_of_mem_words (listed w in_args)).solid c inside

end Roles

end ConfigCommand

/-- A line for a private VLAN is taken exactly if every part of its list stands for one and the same
id, and otherwise the list is refused as it stands. Without commas and dashes that is to say that
the list is an id; a list that means two ids is never taken. -/
theorem private_vlan_takes_repeated_id {line keyword role : String} {args : List String}
    {kind : VlanKind} (words : Text.words line = keyword :: role :: args)
    (first : Text.lower keyword = "private-vlan") (private_role : kind ≠ .normal)
    (named : Text.lower role = kind.name) (some_left : args ≠ []) :
    let list := String.join args
    (∀ id, IdList.Repeats list id →
      ConfigCommand.read line = .ok (.setPrivateVlan id kind)) ∧
    ((¬∃ id, IdList.Repeats list id) →
      ConfigCommand.read line = .error (.invalidVlanList list)) ∧
    (∀ id, IdList.IsId list id ↔
      ',' ∉ list.toList ∧ '-' ∉ list.toList ∧ IdList.Repeats list id) ∧
    (∀ id id', id ≠ id' → IdList.Means list id → IdList.Means list id' →
      ConfigCommand.read line = .error (.invalidVlanList list)) := by
  intro list
  have opened : ConfigCommand.read line = ConfigCommand.ofPrivateVlanWords (role :: args) := by
    rw [ConfigCommand.read, words, ConfigCommand.ofWords_privateVlan first]
  have listed : ∀ w ∈ args, w ∈ Text.words line := by
    rw [words]
    exact fun w listed => List.mem_cons_of_mem _ (List.mem_cons_of_mem _ listed)
  have refused (mixed : ¬∃ id, IdList.Repeats list id) :
      ConfigCommand.read line = .error (.invalidVlanList list) := by
    rw [opened, ConfigCommand.ofPrivateVlanWords_of_not_repeats private_role named some_left mixed]
  refine ⟨?taken, refused, ?token, ?two⟩
  case taken =>
    intro id repeats
    rw [opened, ConfigCommand.ofPrivateVlanWords_of_repeats private_role named some_left repeats]
  case token =>
    intro id
    constructor
    · intro token
      exact ⟨token.no_comma, token.no_dash, token.repeats⟩
    · rintro ⟨no_comma, no_dash, repeats⟩
      exact IdList.isId_of_repeats (ConfigCommand.isBlank_join listed) no_comma no_dash repeats
  case two =>
    intro id id' other means means'
    apply refused
    rintro ⟨one, repeats⟩
    rw [IdList.means_of_repeats repeats] at means means'
    exact other (means.trans means'.symm)

theorem private_vlan_takes_repeated_id_words :
    let line := "Private-VLAN ISOLATED +3 00"
    Text.words line = ["Private-VLAN", "ISOLATED", "+3", "00"] ∧ IdList.IsId "+300" 300 ∧
      ConfigCommand.read line = .ok (.setPrivateVlan 300 .isolated) := by
  intro line
  have words : Text.words line = ["Private-VLAN", "ISOLATED", "+3", "00"] := by decide
  have token : IdList.IsId "+300" 300 :=
    ⟨Text.readUnsigned_eq_some_iff.mp (by decide), by decide⟩
  have first : Text.lower "Private-VLAN" = "private-vlan" := by decide
  have named : Text.lower "ISOLATED" = VlanKind.isolated.name := by decide
  obtain ⟨taken, -, is_id, -⟩ :=
    private_vlan_takes_repeated_id words first (by decide) named (by decide)
  exact ⟨words, token, taken 300 ((is_id 300).mp token).2.2⟩

/-- A run from an id to itself and an id that is listed twice are taken for the id, though neither
of the two lists is an id. -/
theorem private_vlan_takes_run_and_list :
    ConfigCommand.read "private-vlan primary 10-10" = .ok (.setPrivateVlan 10 .primary) ∧
      ConfigCommand.read "private-vlan primary 10,10" = .ok (.setPrivateVlan 10 .primary) ∧
      (¬∃ id, IdList.IsId "10-10" id) ∧ ¬∃ id, IdList.IsId "10,10" id := by
  refine ⟨by decide, by decide, ?_, ?_⟩
  · rintro ⟨id, token⟩
    exact absurd token.no_dash (by decide)
  · rintro ⟨id, token⟩
    exact absurd token.no_comma (by decide)

end VlanTrunking
