import Mathlib.Data.Nat.Digits.Defs
import VlanTrunking.Proofs.Reading

/-! The grammar of VLAN lists, told apart from the reader. Every part of a list, between commas, is
one id or two ids with a dash between them, and blanks may stand around each id; an id is a decimal
numeral of any length whose value can be assigned. The reader accepts exactly the texts whose parts
are all of this form, and it gives the ids of all the intervals that the parts stand for. -/
namespace VlanTrunking

namespace Text

def decimalValue (digits : List Char) : Nat :=
  Nat.ofDigits 10 (digits.reverse.map fun d => d.toNat - '0'.toNat)

theorem ofDigitChars_eq_decimalValue (digits : List Char) :
    Nat.ofDigitChars 10 digits 0 = decimalValue digits := by
  induction digits using List.reverseRecOn with
  | nil => rfl
  | append_singleton digits d ih =>
    rw [Nat.ofDigitChars_append, ih, Nat.ofDigitChars_cons, Nat.ofDigitChars_nil, decimalValue,
      decimalValue, List.reverse_concat, List.map_cons, Nat.ofDigits_cons, Nat.add_comm]

def Padded (inner text : List Char) : Prop :=
  ∃ before after, (∀ b ∈ before, isBlank b = true) ∧ (∀ b ∈ after, isBlank b = true) ∧
    text = before ++ inner ++ after

section Padding

variable {inner text : List Char}

theorem padded_refl (text : List Char) : Padded text text := ⟨[], [], by simp, by simp, by simp⟩

theorem padded_dropWhile (text : List Char) : Padded (text.dropWhile isBlank) text :=
  ⟨text.takeWhile isBlank, [], fun _ => List.mem_takeWhile_imp, by simp, by simp⟩

theorem padded_rdropWhile (text : List Char) : Padded (text.rdropWhile isBlank) text :=
  ⟨[], text.rtakeWhile isBlank, by simp, fun _ => List.mem_rtakeWhile_imp, by simp⟩

theorem Padded.trans {middle : List Char} (first : Padded inner middle)
    (second : Padded middle text) : Padded inner text := by
  obtain ⟨before, after, blank_before, blank_after, rfl⟩ := first
  obtain ⟨before', after', blank_before', blank_after', rfl⟩ := second
  refine ⟨before' ++ before, after ++ after', ?_, ?_, by simp⟩
  · exact List.forall_mem_append.mpr ⟨blank_before', blank_before⟩
  · exact List.forall_mem_append.mpr ⟨blank_after, blank_after'⟩

theorem padded_trimBlanks (text : List Char) : Padded (trimBlanks text) text :=
  (padded_rdropWhile _).trans (padded_dropWhile text)

theorem dropWhile_eq_nil {gap : List Char} (blank : ∀ b ∈ gap, isBlank b = true) :
    gap.dropWhile isBlank = [] := List.dropWhile_eq_nil_iff.mpr blank

theorem trimBlanks_of_padded (padded : Padded inner text) : trimBlanks text = trimBlanks inner := by
  obtain ⟨before, after, blank_before, blank_after, rfl⟩ := padded
  have blank_reversed : ∀ b ∈ after.reverse, isBlank b = true := by simpa using blank_after
  rw [trimBlanks, trimBlanks, List.append_assoc, List.dropWhile_append_of_pos blank_before,
    List.dropWhile_append]
  split
  · next none_left =>
    rw [List.isEmpty_iff] at none_left
    rw [none_left, dropWhile_eq_nil blank_after]
  · rw [List.reverse_append, List.dropWhile_append_of_pos blank_reversed]

theorem dropWhile_append_cons {c : Char} (solid : isBlank c = false) (left right : List Char) :
    (left ++ c :: right).dropWhile isBlank = left.dropWhile isBlank ++ c :: right := by
  have stops : (c :: right).dropWhile isBlank = c :: right := by simp [solid]
  rw [List.dropWhile_append]
  split
  · next none_left =>
    rw [List.isEmpty_iff] at none_left
    rw [none_left, stops, List.nil_append]
  · rfl

theorem trimBlanks_append_cons {c : Char} (solid : isBlank c = false) (left right : List Char) :
    trimBlanks (left ++ c :: right) = left.dropWhile isBlank ++ c :: right.rdropWhile isBlank := by
  rw [trimBlanks, dropWhile_append_cons solid, List.reverse_append, List.reverse_cons,
    List.append_assoc, List.singleton_append, dropWhile_append_cons solid, List.rdropWhile]
  simp

end Padding

inductive Numeral : List Char → Nat → Prop
  | of {sign digits : List Char} : sign = [] ∨ sign = ['+'] → digits ≠ [] →
      (∀ d ∈ digits, d.isDigit = true) → Numeral (sign ++ digits) (decimalValue digits)

section Numerals

variable {cs text : List Char} {n : Nat}

theorem readNat_eq_some_iff :
    readNat cs = some n ↔ cs ≠ [] ∧ (∀ d ∈ cs, d.isDigit = true) ∧ n = decimalValue cs := by
  rw [readNat, ofDigitChars_eq_decimalValue]
  simp only [Option.ite_none_right_eq_some, Bool.and_eq_true, Bool.not_eq_true',
    List.isEmpty_eq_false_iff, List.all_eq_true, Option.some.injEq, and_assoc]
  rw [eq_comm (a := n)]

theorem readUnsigned_eq_some_iff : readUnsigned cs = some n ↔ Numeral cs n := by
  constructor
  · intro read
    unfold readUnsigned at read
    split at read
    · obtain ⟨some_left, digit, rfl⟩ := readNat_eq_some_iff.mp read
      exact .of (.inr rfl) some_left digit
    · obtain ⟨some_left, digit, rfl⟩ := readNat_eq_some_iff.mp read
      exact .of (.inl rfl) some_left digit
  · intro numeral
    cases numeral with
    | of sign some_left digit =>
      have read := readNat_eq_some_iff.mpr ⟨some_left, digit, rfl⟩
      rcases sign with rfl | rfl
      · rw [List.nil_append]
        unfold readUnsigned
        split
        · exact absurd (digit '+' (by simp)) (by decide)
        · exact read
      · exact read

theorem Numeral.mem {c : Char} (numeral : Numeral cs n) (listed : c ∈ cs) :
    c = '+' ∨ c.isDigit = true := by
  cases numeral with
  | of sign _ digit =>
    rcases List.mem_append.mp listed with in_sign | in_digits
    · rcases sign with rfl | rfl
      · cases in_sign
      · exact .inl (List.mem_singleton.mp in_sign)
    · exact .inr (digit c in_digits)

theorem Numeral.solid (numeral : Numeral cs n) : ∀ c ∈ cs, isBlank c = false := by
  intro c listed
  rcases numeral.mem listed with rfl | digit
  · decide
  · exact isBlank_of_isDigit digit

theorem Numeral.no_dash (numeral : Numeral cs n) (padded : Padded cs text) : '-' ∉ text := by
  obtain ⟨before, after, blank_before, blank_after, rfl⟩ := padded
  have solid : ¬isBlank '-' = true := by decide
  intro listed
  rw [List.mem_append, List.mem_append] at listed
  rcases listed with (in_before | in_numeral) | in_after
  · exact solid (blank_before _ in_before)
  · rcases numeral.mem in_numeral with plus | digit
    · exact absurd plus (by decide)
    · exact absurd digit (by decide)
  · exact solid (blank_after _ in_after)

theorem Numeral.trimBlanks_eq (numeral : Numeral cs n) (padded : Padded cs text) :
    trimBlanks text = cs := by
  rw [trimBlanks_of_padded padded, trimBlanks_of_solid numeral.solid]

end Numerals

end Text

namespace IdList

open Text (Padded Numeral)

/-- A text for one id: a numeral with blanks around it, whose value can be assigned. -/
structure IdText (text : List Char) (id : VlanId) : Prop where
  numeral : ∃ cs, Numeral cs id ∧ Padded cs text
  assignable : id.Assignable

/-- A part of a list: an id, or the first and the last id of a run with a dash between them. -/
inductive SpanText : List Char → IdSpan → Prop
  | single {text : List Char} {id : VlanId} : IdText text id → SpanText text ⟨id, id⟩
  | run {left right : List Char} {first last : VlanId} :
      IdText left first → IdText right last → first ≤ last →
      SpanText (left ++ '-' :: right) ⟨first, last⟩

def parts (text : String) : List (List Char) := text.toList.splitOn ','

def Grammatical (text : String) : Prop := ∀ part ∈ parts text, ∃ span, SpanText part span

/-- Some part of a list stands for an interval with the id. -/
def Means (text : String) (id : VlanId) : Prop :=
  ∃ part ∈ parts text, ∃ span, SpanText part span ∧ span.first ≤ id ∧ id ≤ span.last

/-- The places for ids in a part: the whole of it, or the two sides of its first dash. -/
inductive IdPlace : List Char → List Char → Prop
  | whole {part : List Char} : '-' ∉ part → IdPlace part part
  | left {left right : List Char} : '-' ∉ left → IdPlace (left ++ '-' :: right) left
  | right {left right : List Char} : '-' ∉ left → IdPlace (left ++ '-' :: right) right

/-- A numeral of the list has a value that cannot be assigned. -/
def OutOfRange (text : String) : Prop :=
  ∃ part ∈ parts text, ∃ place, IdPlace part place ∧
    ∃ cs n, Numeral cs n ∧ Padded cs place ∧ ¬VlanId.Assignable n

section Parts

variable {cs : List Char} {id : VlanId} {span : IdSpan}

theorem IdText.no_dash (text : IdText cs id) : '-' ∉ cs := by
  obtain ⟨_, numeral, padded⟩ := text.numeral
  exact numeral.no_dash padded

theorem readId_eq_some_iff : readId cs = some id ↔ IdText cs id := by
  rw [readId, Option.filter_eq_some_iff, decide_eq_true_eq]
  constructor
  · rintro ⟨read, assignable⟩
    exact ⟨⟨_, Text.readUnsigned_eq_some_iff.mp read, Text.padded_trimBlanks cs⟩, assignable⟩
  · rintro ⟨⟨numeral, written, padded⟩, assignable⟩
    rw [written.trimBlanks_eq padded]
    exact ⟨Text.readUnsigned_eq_some_iff.mpr written, assignable⟩

theorem readId_of_padded {text : List Char} (padded : Padded cs text) :
    readId text = readId cs := by
  rw [readId, readId, Text.trimBlanks_of_padded padded]

theorem readSpan_of_no_dash (no_dash : '-' ∉ cs) :
    readSpan cs = (readId cs).map fun id => ⟨id, id⟩ := by
  have none_trimmed : '-' ∉ Text.trimBlanks cs := by
    obtain ⟨before, after, _, _, whole⟩ := Text.padded_trimBlanks cs
    intro listed
    exact no_dash (whole ▸ by simp [listed])
  have undivided : (Text.trimBlanks cs).dropWhile (· != '-') = [] := by
    rw [List.dropWhile_eq_nil_iff]
    intro c listed
    have other : c ≠ '-' := by
      rintro rfl
      exact none_trimmed listed
    simpa using other
  rw [readSpan, undivided, readId_of_padded (Text.padded_trimBlanks cs)]

theorem readSpan_of_dash {left right : List Char} (first_dash : '-' ∉ left) :
    readSpan (left ++ '-' :: right) =
      (readId left).bind fun first => (readId right).bind fun last =>
        if first ≤ last then some ⟨first, last⟩ else none := by
  have other : ∀ c ∈ left.dropWhile Text.isBlank, (c != '-') = true := by
    intro c listed
    have other : c ≠ '-' := by
      rintro rfl
      exact first_dash ((List.dropWhile_suffix _).subset listed)
    simpa using other
  rw [readSpan, Text.trimBlanks_append_cons (by decide), List.dropWhile_append_of_pos other,
    List.takeWhile_append_of_pos other, readId_of_padded (Text.padded_dropWhile left),
    readId_of_padded (Text.padded_rdropWhile right)]
  simp

theorem readSpan_eq_some_iff : readSpan cs = some span ↔ SpanText cs span := by
  constructor
  · intro read
    by_cases dash : '-' ∈ cs
    · obtain ⟨left, right, rfl, first_dash⟩ := List.eq_append_cons_of_mem dash
      simp only [readSpan_of_dash first_dash, Option.bind_eq_some_iff] at read
      obtain ⟨first, read_first, last, read_last, read⟩ := read
      split at read
      · next ordered =>
        cases read
        exact .run (readId_eq_some_iff.mp read_first) (readId_eq_some_iff.mp read_last) ordered
      · cases read
    · rw [readSpan_of_no_dash dash] at read
      obtain ⟨id, read_id, rfl⟩ := Option.map_eq_some_iff.mp read
      exact .single (readId_eq_some_iff.mp read_id)
  · intro part
    cases part with
    | single written =>
      rw [readSpan_of_no_dash written.no_dash, readId_eq_some_iff.mpr written, Option.map_some]
    | run written written' ordered =>
      rw [readSpan_of_dash written.no_dash, readId_eq_some_iff.mpr written,
        readId_eq_some_iff.mpr written', Option.bind_some, Option.bind_some, if_pos ordered]

end Parts

section Lists

variable {text : String} {ids : List VlanId}

theorem exists_mapM_iff {α β : Type} {f : α → Option β} {l : List α} :
    (∃ l', l.mapM f = some l') ↔ ∀ a ∈ l, ∃ b, f a = some b := by
  induction l with
  | nil => simp
  | cons a l ih =>
    rw [List.forall_mem_cons, ← ih]
    simp [List.mapM_cons, Option.bind_eq_some_iff]

theorem mem_of_mapM {α β : Type} {f : α → Option β} {l : List α} {l' : List β}
    (reads : l.mapM f = some l') (b : β) : b ∈ l' ↔ ∃ a ∈ l, f a = some b := by
  have each := forall₂_of_mapM reads
  clear reads
  induction each with
  | nil => simp
  | cons read _ ih =>
    simp [ih, read, eq_comm (a := b)]

theorem exists_read?_iff : (∃ ids, read? text = some ids) ↔ Grammatical text := by
  simp only [Grammatical, ← readSpan_eq_some_iff]
  rw [← exists_mapM_iff]
  simp only [read?, parts, Option.map_eq_some_iff]
  constructor
  · rintro ⟨_, spans, reads, _⟩
    exact ⟨spans, reads⟩
  · rintro ⟨spans, reads⟩
    exact ⟨_, spans, reads, rfl⟩

theorem mem_of_read? (h : read? text = some ids) (id : VlanId) : id ∈ ids ↔ Means text id := by
  obtain ⟨spans, reads, rfl⟩ := Option.map_eq_some_iff.mp h
  simp only [mem_covered, mem_of_mapM reads, readSpan_eq_some_iff, Means, parts]
  constructor
  · rintro ⟨span, ⟨part, listed, means⟩, within⟩
    exact ⟨part, listed, span, means, within⟩
  · rintro ⟨part, listed, span, means, within⟩
    exact ⟨span, ⟨part, listed, means⟩, within⟩

theorem read_eq_ok_iff : read text = .ok ids ↔ read? text = some ids := by
  unfold read
  split <;> simp_all

theorem read_of_ungrammatical (ungrammatical : ¬Grammatical text) :
    read text = .error (.invalidVlanList text) := by
  unfold read
  split
  · next ids read => exact absurd (exists_read?_iff.mp ⟨ids, read⟩) ungrammatical
  · rfl

theorem readId_of_place {part place : List Char} {span : IdSpan} (at_place : IdPlace part place)
    (means : SpanText part span) : ∃ id, readId place = some id := by
  rw [← readSpan_eq_some_iff] at means
  cases at_place with
  | whole no_dash =>
    rw [readSpan_of_no_dash no_dash] at means
    obtain ⟨id, read, _⟩ := Option.map_eq_some_iff.mp means
    exact ⟨id, read⟩
  | left first_dash =>
    simp only [readSpan_of_dash first_dash, Option.bind_eq_some_iff] at means
    obtain ⟨first, read, _⟩ := means
    exact ⟨first, read⟩
  | right first_dash =>
    simp only [readSpan_of_dash first_dash, Option.bind_eq_some_iff] at means
    obtain ⟨_, _, last, read, _⟩ := means
    exact ⟨last, read⟩

theorem ungrammatical_of_outOfRange (h : OutOfRange text) : ¬Grammatical text := by
  obtain ⟨part, listed, place, at_place, cs, n, numeral, padded, out⟩ := h
  intro grammatical
  obtain ⟨span, means⟩ := grammatical part listed
  obtain ⟨id, read⟩ := readId_of_place at_place means
  rw [readId, numeral.trimBlanks_eq padded, Text.readUnsigned_eq_some_iff.mpr numeral,
    Option.filter_eq_some_iff, decide_eq_true_eq] at read
  obtain ⟨same, assignable⟩ := read
  cases same
  exact out assignable

end Lists

end IdList

/-- The reader of VLAN lists accepts the texts of the grammar and gives the ids they mean, in order
and each once; any other text it refuses as it stands. No numeral is so long that it is taken for
another, and only the set of the parts counts. -/
theorem list_reader_meaning (text : String) :
    ((∃ ids, IdList.read text = .ok ids) ↔ IdList.Grammatical text) ∧
    (∀ ids, IdList.read text = .ok ids →
      ids.Pairwise (· < ·) ∧ ∀ id, id ∈ ids ↔ IdList.Means text id) ∧
    (¬IdList.Grammatical text → IdList.read text = .error (.invalidVlanList text)) ∧
    (IdList.OutOfRange text → IdList.read text = .error (.invalidVlanList text)) ∧
    (∀ text' ids, (∀ part, part ∈ IdList.parts text' ↔ part ∈ IdList.parts text) →
      IdList.read text = .ok ids → IdList.read text' = .ok ids) := by
  refine ⟨?accepts, ?means, IdList.read_of_ungrammatical, ?range, ?parts⟩
  case accepts =>
    simp only [IdList.read_eq_ok_iff]
    exact IdList.exists_read?_iff
  case means =>
    intro ids read
    rw [IdList.read_eq_ok_iff] at read
    exact ⟨(IdList.canonical_of_read? read).ascending, IdList.mem_of_read? read⟩
  case range =>
    intro out
    exact IdList.read_of_ungrammatical (IdList.ungrammatical_of_outOfRange out)
  case parts =>
    intro text' ids same read
    rw [IdList.read_eq_ok_iff] at read ⊢
    have grammatical : IdList.Grammatical text' := by
      intro part listed
      exact IdList.exists_read?_iff.mp ⟨ids, read⟩ part ((same part).mp listed)
    obtain ⟨ids', read'⟩ := IdList.exists_read?_iff.mpr grammatical
    have members : ∀ id, id ∈ ids' ↔ id ∈ ids := by
      intro id
      simp only [IdList.mem_of_read? read, IdList.mem_of_read? read', IdList.Means, same]
    rw [read', (IdList.canonical_of_read? read').ascending.eq_of_mem_iff
      (IdList.canonical_of_read? read).ascending members]

theorem list_reader_meaning_spellings :
    let text := " +0010 ,20 -\u200322,21"
    let again := "21,20 -\u200322,21, +0010 "
    IdList.read text = .ok [10, 20, 21, 22] ∧ IdList.Grammatical text ∧
      (∀ id, id ∈ [10, 20, 21, 22] ↔ IdList.Means text id) ∧
      IdList.read again = .ok [10, 20, 21, 22] ∧
      IdList.read "10,65546" = .error (.invalidVlanList "10,65546") := by
  intro text again
  have read : IdList.read text = .ok [10, 20, 21, 22] := by decide
  obtain ⟨accepts, means, -, -, reordered⟩ := list_reader_meaning text
  obtain ⟨-, -, -, range, -⟩ := list_reader_meaning "10,65546"
  have same : ∀ part, part ∈ IdList.parts again ↔ part ∈ IdList.parts text := by
    have kept : IdList.parts again ⊆ IdList.parts text := by decide
    have reached : IdList.parts text ⊆ IdList.parts again := by decide
    exact fun part => ⟨fun listed => kept listed, fun listed => reached listed⟩
  have out : IdList.OutOfRange "10,65546" := by
    have numeral : Text.Numeral "65546".toList 65546 :=
      Text.readUnsigned_eq_some_iff.mp (by decide)
    exact ⟨"65546".toList, by decide, _, .whole (by decide), _, _, numeral, Text.padded_refl _,
      by decide⟩
  exact ⟨read, accepts.mp ⟨_, read⟩, (means _ read).2, reordered again _ same read, range out⟩

end VlanTrunking
