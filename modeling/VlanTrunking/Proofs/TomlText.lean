import Mathlib.Data.List.TakeWhile
import VlanTrunking.Proofs.TomlLineEnds
import VlanTrunking.Text.Decimal
import VlanTrunking.Toml.Document

/-! Lines of a TOML file as they may be written: headers, and keys with their values, which are
strings with any escapes, decimal numerals or any other value. Every such line is read as what it
says, and so are files that are made of them. -/
namespace VlanTrunking.Toml

open Text (hexDigitValue? readHexDigits)

inductive EscapedText : List Char → List Char → Prop
  | done : EscapedText [] []
  | plain {c : Char} {s cs : List Char} :
      isPrintable c = true → c ≠ '"' → c ≠ '\\' → EscapedText s cs →
      EscapedText (c :: s) (c :: cs)
  | short {letter c : Char} {s cs : List Char} :
      shortEscapes.lookup letter = some c → EscapedText s cs →
      EscapedText (c :: s) ('\\' :: letter :: cs)
  | numbered {c : Char} {digits s cs : List Char} :
      digits.length = 4 → readHexDigits digits = some c.toNat → EscapedText s cs →
      EscapedText (c :: s) ('\\' :: 'u' :: (digits ++ cs))
  | longNumbered {c : Char} {digits s cs : List Char} :
      digits.length = 8 → readHexDigits digits = some c.toNat → EscapedText s cs →
      EscapedText (c :: s) ('\\' :: 'U' :: (digits ++ cs))

theorem EscapedText.append_plain {plain s cs : List Char}
    (unescaped : plain.all (fun c => isPrintable c && c != '"' && c != '\\') = true)
    (text : EscapedText s cs) : EscapedText (plain ++ s) (plain ++ cs) := by
  induction plain with
  | nil => exact text
  | cons c plain ih =>
    simp only [List.all_cons, Bool.and_eq_true, bne_iff_ne] at unescaped
    obtain ⟨⟨⟨printable, no_quote⟩, no_slash⟩, later⟩ := unescaped
    exact .plain printable no_quote no_slash (ih later)

inductive KeyText : String → List Char → Prop
  | bare {cs : List Char} : cs ≠ [] → cs.all isBareKeyChar = true →
      KeyText (String.ofList cs) cs
  | basic {s cs : List Char} : EscapedText s cs → KeyText (String.ofList s) ('"' :: (cs ++ ['"']))
  | literal {s : List Char} : (∀ c ∈ s, c ≠ '\'' ∧ isPrintable c = true) →
      KeyText (String.ofList s) ('\'' :: (s ++ ['\'']))

/-- How a value may be written. -/
inductive ValueText : Item → List Char → Prop
  | string {s cs : List Char} : EscapedText s cs →
      ValueText (.string (String.ofList s)) ('"' :: (cs ++ ['"']))
  | integer {n : Nat} : n < Nat.pow 2 63 → ValueText (.integer n) (Nat.toDigits 10 n)
  | other {v : Item} {cs : List Char} : value? cs = some (v, []) → ValueText v cs

def Spaces (cs : List Char) : Prop := ∀ c ∈ cs, isSpace c = true

instance (cs : List Char) : Decidable (Spaces cs) :=
  decidable_of_iff (cs.all isSpace = true) List.all_eq_true

/-- How a line may be written, without its end. -/
inductive LineText : Line → List Char → Prop
  | blank {space : List Char} : Spaces space → LineText .blank space
  | comment {space note : List Char} : Spaces space → (∀ c ∈ note, isPrintable c = true) →
      LineText .blank (space ++ '#' :: note)
  | header {name : String} {cs : List Char} : KeyText name cs →
      LineText (.header [name]) ('[' :: (cs ++ [']']))
  | entry {key : String} {v : Item} {cs vs before after : List Char} :
      KeyText key cs → Spaces before → Spaces after → ValueText v vs →
      LineText (.entry [key] v) (cs ++ (before ++ '=' :: (after ++ vs)))

variable {cs s below after rest : List Char}

section Strings

theorem scalarChar?_toNat (c : Char) : scalarChar? c.toNat = some c := by
  have valid : c.toNat.isValidChar := c.valid
  rw [scalarChar?, if_pos valid, Char.ofNat_toNat]

theorem basicString_digits {c : Char} {digits : List Char} {value : Nat} (positive : digits ≠ [])
    (read : digits.foldlM (fun n c => (hexDigitValue? c).map fun d => 16 * n + d) value =
      some c.toNat) (cs : List Char) :
    basicString (.codePoint digits.length value) (digits ++ cs) =
      (basicString .plain cs).cons c := by
  induction digits generalizing value with
  | nil => exact absurd rfl positive
  | cons digit digits ih =>
    obtain ⟨next, first, later⟩ := Option.bind_eq_some_iff.mp read
    obtain ⟨d, digit_value, rfl⟩ := Option.map_eq_some_iff.mp first
    rw [List.cons_append, basicString, digit_value]
    dsimp only
    cases digits with
    | nil =>
      have number : 16 * value + d = c.toNat := Option.some.inj later
      rw [number, scalarChar?_toNat]
      rfl
    | cons digit' digits =>
      rw [if_neg (by simp)]
      exact ih (by simp) later

theorem basicString_escaped (text : EscapedText s cs) (after : List Char) :
    basicString .plain (cs ++ '"' :: after) = some (s, after) := by
  induction text with
  | done => rfl
  | plain printable no_quote no_slash _ ih =>
    simp [basicString, printable, no_quote, no_slash, ih, Scanned.cons]
  | short escape _ ih =>
    next letter _ _ _ _ =>
    have other : letter ≠ 'u' ∧ letter ≠ 'U' := by
      constructor <;> rintro rfl <;> cases escape
    simp [basicString, other, escape, ih, Scanned.cons]
  | numbered four value _ ih =>
    next cs _ =>
    have some_digits := List.ne_nil_of_length_pos (four.symm ▸ (by decide : 0 < 4))
    have read := basicString_digits some_digits value (cs ++ '"' :: after)
    rw [four] at read
    simp [basicString, read, ih, Scanned.cons]
  | longNumbered eight value _ ih =>
    next cs _ =>
    have some_digits := List.ne_nil_of_length_pos (eight.symm ▸ (by decide : 0 < 8))
    have read := basicString_digits some_digits value (cs ++ '"' :: after)
    rw [eight] at read
    simp [basicString, read, ih, Scanned.cons]

theorem literalString_plain (plain : ∀ c ∈ s, c ≠ '\'' ∧ isPrintable c = true)
    (after : List Char) : literalString (s ++ '\'' :: after) = some (s, after) := by
  induction s with
  | nil => rfl
  | cons c s ih =>
    obtain ⟨first, later⟩ := List.forall_mem_cons.mp plain
    simp [literalString, first, ih later, Scanned.cons]

end Strings

section Keys

variable {key : String}

theorem keyPart?_text (text : KeyText key cs) (stops : ∀ c ∈ after.head?, isBareKeyChar c = false) :
    keyPart? (cs ++ after) = some (key, after) := by
  cases text with
  | bare some_chars bare =>
    obtain ⟨c, cs, rfl⟩ := List.exists_cons_of_ne_nil some_chars
    have bare := List.all_eq_true.mp bare
    have first := bare c (by simp)
    have run : (c :: cs).takeWhile isBareKeyChar = c :: cs := List.takeWhile_eq_self_iff.mpr bare
    have nothing_left : (c :: cs).dropWhile isBareKeyChar = [] :=
      List.dropWhile_eq_nil_iff.mpr bare
    unfold keyPart?
    split
    · next same =>
      cases (List.cons.inj same).1
      cases first
    · next same =>
      cases (List.cons.inj same).1
      cases first
    · rw [takeWhile_append_stop stops, dropWhile_append_stop stops, run, nothing_left]
      rfl
  | basic text =>
    have read := basicString_escaped text after
    simp [keyPart?, read]
  | literal plain =>
    have read := literalString_plain plain after
    simp [keyPart?, read]

theorem skipSpaces_spaces {space : List Char} (spaces : Spaces space)
    (solid : ∀ c ∈ after.head?, isSpace c = false) : skipSpaces (space ++ after) = after := by
  rw [skipSpaces, List.dropWhile_append_of_pos spaces]
  cases after <;> simp_all

theorem KeyText.begins (text : KeyText key cs) :
    ∃ c rest, cs = c :: rest ∧ c ∉ [' ', '\t', '[', '#', '\n', '\r'] := by
  have no_bare : [' ', '\t', '[', '#', '\n', '\r'].all (!isBareKeyChar ·) = true := by decide
  cases text with
  | bare some_chars bare =>
    obtain ⟨c, cs, rfl⟩ := List.exists_cons_of_ne_nil some_chars
    refine ⟨c, cs, rfl, fun listed => ?_⟩
    have first := List.all_eq_true.mp bare c (by simp)
    have not_bare := List.all_eq_true.mp no_bare c listed
    rw [first] at not_bare
    cases not_bare
  | basic text => exact ⟨_, _, rfl, by decide⟩
  | literal plain => exact ⟨_, _, rfl, by decide⟩

theorem skipSpaces_key (text : KeyText key cs) (after : List Char) :
    skipSpaces (cs ++ after) = cs ++ after := by
  obtain ⟨c, rest, rfl, first⟩ := text.begins
  have solid : isSpace c = false := by
    simp only [List.mem_cons, not_or] at first
    simp [isSpace, first]
  exact List.dropWhile_cons_of_neg (by simp [solid])

theorem key?_text (text : KeyText key cs) {space : List Char} (spaces : Spaces space)
    {mark : Char} (ends : mark = '=' ∨ mark = ']') (after : List Char) :
    key? (cs ++ (space ++ mark :: after)) = some ([key], mark :: after) := by
  have stops : ∀ c ∈ (space ++ mark :: after).head?, isBareKeyChar c = false := by
    cases space with
    | nil => rcases ends with rfl | rfl <;> simp [isBareKeyChar]
    | cons c space =>
      have first := spaces c (by simp)
      rw [isSpace, Bool.or_eq_true, decide_eq_true_eq, decide_eq_true_eq] at first
      rcases first with rfl | rfl <;> simp [isBareKeyChar]
  have solid : skipSpaces (space ++ mark :: after) = mark :: after :=
    skipSpaces_spaces spaces (by rcases ends with rfl | rfl <;> simp [isSpace])
  rw [key?, nestingLimit, keyParts?, skipSpaces_key text, keyPart?_text text stops]
  simp only [Option.bind_eq_bind, Option.bind_some, solid]
  rcases ends with rfl | rfl <;> rfl

end Keys

section Values

theorem dash_of_isDate (h : isDate cs = true) : '-' ∈ cs := by
  unfold isDate at h
  split at h
  · simp
  · cases h

theorem colon_of_clock? (h : clock? cs = some rest) : ':' ∈ cs := by
  unfold clock? at h
  split at h
  · simp
  · cases h

theorem isMoment_eq_false (no_dash : '-' ∉ cs) (no_colon : ':' ∉ cs) : isMoment cs = false := by
  have no_date : isDate cs = false :=
    Bool.eq_false_iff.mpr fun date => no_dash (dash_of_isDate date)
  have no_date_first : isDate (cs.take 10) = false :=
    Bool.eq_false_iff.mpr fun date => no_dash (List.mem_of_mem_take (dash_of_isDate date))
  have no_time : isTime cs = false := by
    refine Bool.eq_false_iff.mpr fun time => ?_
    obtain ⟨rest, clock, -⟩ := Option.bind_eq_some_iff.mp (by simpa [isTime] using time)
    exact no_colon (colon_of_clock? clock)
  simp [isMoment, no_date, no_time, no_date_first]

variable {n : Nat}

theorem splitSign_toDigits (n : Nat) :
    splitSign (Nat.toDigits 10 n) = (false, Nat.toDigits 10 n) := by
  have no_minus : '-' ∉ Nat.toDigits 10 n := Text.notMem_toDigits (by decide) n
  have no_plus : '+' ∉ Nat.toDigits 10 n := Text.notMem_toDigits (by decide) n
  unfold splitSign
  split
  · next same => simp [same] at no_minus
  · next same => simp [same] at no_plus
  · rfl

theorem isFloat_toDigits (n : Nat) : isFloat (Nat.toDigits 10 n) = false := by
  have no_name : 'n' ∉ Nat.toDigits 10 n := Text.notMem_toDigits (by decide) n
  have digits := Text.isDigit_toDigits n
  unfold isFloat
  rw [splitSign_toDigits]
  generalize Nat.toDigits 10 n = ds at no_name digits
  have no_exponent : ds.takeWhile (!isExponentLetter ·) = ds :=
    List.takeWhile_eq_self_iff.mpr fun c listed => by
      have digit := digits c listed
      rw [Bool.not_eq_true', isExponentLetter, Bool.or_eq_false_iff]
      constructor <;> rw [decide_eq_false_iff_not] <;> rintro rfl <;> cases digit
  have no_point : ds.dropWhile (fun c => !decide (c = '.')) = [] :=
    List.dropWhile_eq_nil_iff.mpr fun c listed => by
      have digit := digits c listed
      rw [Bool.not_eq_true', decide_eq_false_iff_not]
      rintro rfl
      cases digit
  have unnamed : ds ≠ ['i', 'n', 'f'] ∧ ds ≠ ['n', 'a', 'n'] := by
    constructor <;> rintro rfl <;> simp at no_name
  simp [no_exponent, no_point, unnamed]

theorem wholeDigits?_toDigits (n : Nat) :
    wholeDigits? (Nat.toDigits 10 n) = some (Nat.toDigits 10 n) := by
  have no_underscore : '_' ∉ Nat.toDigits 10 n := Text.notMem_toDigits (by decide) n
  have one_run : (Nat.toDigits 10 n).splitOn '_' = [Nat.toDigits 10 n] := by
    have runs : ∀ run ∈ [Nat.toDigits 10 n], '_' ∉ run := by simp [no_underscore]
    simpa only [List.intercalate_singleton] using List.splitOn_intercalate '_' runs (by simp)
  have digits := Text.isDigit_toDigits n
  have trimmed := Text.toDigits_trimmed n
  have read : spacedDigits? Char.isDigit (Nat.toDigits 10 n) = some (Nat.toDigits 10 n) := by
    simpa [spacedDigits?, one_run, Nat.toDigits_ne_nil] using digits
  simp [wholeDigits?, read, Option.filter, trimmed]

theorem integer?_toDigits (bound : n < Nat.pow 2 63) :
    integer? (Nat.toDigits 10 n) = some (n : Int) := by
  have absent {c : Char} (h : c.isDigit = false) : c ∉ Nat.toDigits 10 n :=
    Text.notMem_toDigits h n
  have no_hex : 'x' ∉ Nat.toDigits 10 n := absent (by decide)
  have no_octal : 'o' ∉ Nat.toDigits 10 n := absent (by decide)
  have no_binary : 'b' ∉ Nat.toDigits 10 n := absent (by decide)
  have value : Nat.ofDigitChars 10 (Nat.toDigits 10 n) 0 = n := Nat.ofDigitChars_ten_toDigits
  unfold integer?
  split
  · next same => simp [same] at no_hex
  · next same => simp [same] at no_octal
  · next same => simp [same] at no_binary
  · simp only [splitSign_toDigits, wholeDigits?_toDigits, Option.map_some, value]
    have fits : -9223372036854775808 ≤ (n : Int) ∧ (n : Int) ≤ 9223372036854775807 := by
      have power : Nat.pow 2 63 = 9223372036854775808 := rfl
      omega
    exact if_pos fits

theorem ofRun?_toDigits (bound : n < Nat.pow 2 63) :
    ofRun? (Nat.toDigits 10 n) = some (.integer n) := by
  have absent {c : Char} (h : c.isDigit = false) : c ∉ Nat.toDigits 10 n :=
    Text.notMem_toDigits h n
  have no_true : Nat.toDigits 10 n ≠ "true".toList := fun same =>
    absent (show 't'.isDigit = false by decide) (by rw [same]; decide)
  have no_false : Nat.toDigits 10 n ≠ "false".toList := fun same =>
    absent (show 'f'.isDigit = false by decide) (by rw [same]; decide)
  have no_moment : isMoment (Nat.toDigits 10 n) = false :=
    isMoment_eq_false (absent (by decide)) (absent (by decide))
  rw [ofRun?, if_neg no_true, if_neg no_false, no_moment, isFloat_toDigits, integer?_toDigits bound]
  rfl

theorem scalar?_toDigits (bound : n < Nat.pow 2 63) :
    scalar? (Nat.toDigits 10 n) = some (.integer n, []) := by
  have digits := Text.isDigit_toDigits n
  have run_chars : ∀ c ∈ Nat.toDigits 10 n, isRunChar c = true := fun c listed => by
    have digit := digits c listed
    simp [isRunChar, Char.isAlphanum, digit]
  have run : (Nat.toDigits 10 n).takeWhile isRunChar = Nat.toDigits 10 n :=
    List.takeWhile_eq_self_iff.mpr run_chars
  have nothing_left : (Nat.toDigits 10 n).dropWhile isRunChar = [] :=
    List.dropWhile_eq_nil_iff.mpr run_chars
  have unquoted :
      ¬((Nat.toDigits 10 n).head? = some '"' ∨ (Nat.toDigits 10 n).head? = some '\'') := by
    rintro (quote | quote)
    · cases digits _ (List.mem_of_mem_head? quote)
    · cases digits _ (List.mem_of_mem_head? quote)
  simp [scalar?, unquoted, run, nothing_left, ofRun?_toDigits bound]

theorem scalar?_escaped (text : EscapedText s cs) :
    scalar? ('"' :: (cs ++ ['"'])) = some (.string (String.ofList s), []) := by
  have single : ∀ inner, cs ++ ['"'] ≠ '"' :: '"' :: inner := by
    intro inner same
    cases text with
    | done => cases same
    | plain _ no_quote => exact no_quote (List.cons.inj same).1
    | short => cases same
    | numbered => cases same
    | longNumbered => cases same
  have read : string? ('"' :: (cs ++ ['"'])) = some (s, []) := by
    rw [string?_basic single]
    exact basicString_escaped text []
  simp [scalar?, read]

theorem value?_of_scalar {v : Item} (plain : cs.head? ≠ some '[' ∧ cs.head? ≠ some '\x7b')
    (h : scalar? cs = some (v, rest)) : value? cs = some (v, rest) := by
  have first : Progress.begin [] cs = some (⟨[], some v⟩, rest) := by
    unfold Progress.begin
    split
    · exact absurd rfl plain.1
    · exact absurd rfl plain.2
    · rw [h]
      rfl
  have step : Progress.step {} cs = some (⟨[], some v⟩, rest) := first
  rw [value?, Progress.run_of_step step (by simp), Progress.run]

theorem value?_text {v : Item} (text : ValueText v cs) : value? cs = some (v, []) := by
  cases text with
  | string text => exact value?_of_scalar (by simp) (scalar?_escaped text)
  | integer bound =>
    refine value?_of_scalar ?_ (scalar?_toDigits bound)
    constructor <;> intro first <;> cases Text.isDigit_toDigits _ _ (List.mem_of_mem_head? first)
  | other read => exact read

theorem scalar?_space {c : Char} (space : isSpace c = true) : scalar? (c :: cs) = none := by
  rw [isSpace, Bool.or_eq_true, decide_eq_true_eq, decide_eq_true_eq] at space
  rcases space with rfl | rfl <;> simp [scalar?, isRunChar, isDate, ofRun?_nil]

theorem exists_begin {v : Item} (h : value? cs = some (v, rest)) :
    ∃ p left, Progress.begin [] cs = some (p, left) := by
  rw [value?, Progress.run.eq_def] at h
  split at h
  · next complete => cases complete
  · split at h
    · cases h
    · next p left step => exact ⟨p, left, step⟩

theorem solid_of_value? {v : Item} (h : value? cs = some (v, rest)) :
    ∀ c ∈ cs.head?, isSpace c = false := by
  intro c first
  refine Bool.eq_false_iff.mpr fun space => ?_
  obtain ⟨cs, rfl⟩ : ∃ cs', cs = c :: cs' := List.head?_eq_some_iff.mp first
  have nothing : Progress.begin [] (c :: cs) = none := by
    unfold Progress.begin
    split
    · next same =>
      cases (List.cons.inj same).1
      cases space
    · next same =>
      cases (List.cons.inj same).1
      cases space
    · rw [scalar?_space space]
      rfl
  obtain ⟨p, left, begun⟩ := exists_begin h
  rw [nothing] at begun
  cases begun

end Values

section Lines

theorem endOfLine?_comment {note : List Char} (printable : ∀ c ∈ note, isPrintable c = true)
    (ends : LineEnd after below) : endOfLine? ('#' :: (note ++ after)) = some below := by
  have passed : (note ++ after).dropWhile isPrintable = after := by
    rw [ends.dropWhile (by decide) (by decide), List.dropWhile_eq_nil_iff.mpr printable,
      List.nil_append]
  have begins : skipSpaces ('#' :: (note ++ after)) = '#' :: (note ++ after) := rfl
  simp only [endOfLine?, begins, passed]
  cases ends <;> rfl

theorem endOfLine?_key {c : Char} (first : c ∉ [' ', '\t', '[', '#', '\n', '\r']) (cs : List Char) :
    endOfLine? (c :: cs) = none := by
  simp only [List.mem_cons, not_or] at first
  have begins : skipSpaces (c :: cs) = c :: cs :=
    List.dropWhile_cons_of_neg (by simp [isSpace, first])
  simp [endOfLine?, begins, newline?, first]

theorem line?_header {name : String} (key : KeyText name cs) (ends : LineEnd after below) :
    line? ('[' :: (cs ++ ']' :: after)) = some (.header [name], below) := by
  have read : key? (cs ++ ']' :: after) = some ([name], ']' :: after) :=
    key?_text key (show Spaces [] by decide) (.inr rfl) after
  have ended : endOfLine? after = some below := by cases ends <;> rfl
  obtain ⟨c, rest, rfl, first⟩ := key.begins
  have single : c ≠ '[' := by
    rintro rfl
    simp at first
  have begins : skipSpaces ('[' :: (c :: rest ++ ']' :: after)) =
      '[' :: (c :: rest ++ ']' :: after) := rfl
  unfold line?
  rw [begins]
  split
  · next same => exact absurd (List.cons.inj (List.cons.inj same).2).1 single
  · next same =>
    cases same
    rw [read]
    simp [ended]
  · next other => exact absurd rfl (other _)

theorem line?_entry {key : String} {v : Item} {vs space space' : List Char}
    (text : KeyText key cs) (spaces : Spaces space) (spaces' : Spaces space')
    (value : value? vs = some (v, [])) (ends : LineEnd after below) :
    line? (cs ++ (space ++ '=' :: (space' ++ (vs ++ after)))) = some (.entry [key] v, below) := by
  have read : key? (cs ++ (space ++ '=' :: (space' ++ (vs ++ after)))) =
      some ([key], '=' :: (space' ++ (vs ++ after))) := key?_text text spaces (.inl rfl) _
  have further : value? (vs ++ after) = some (v, after) := value?_line ends value
  have skipped : skipSpaces (space' ++ (vs ++ after)) = vs ++ after :=
    skipSpaces_spaces spaces' (solid_of_value? further)
  have ended : endOfLine? after = some below := by cases ends <;> rfl
  have begins := skipSpaces_key text (space ++ '=' :: (space' ++ (vs ++ after)))
  obtain ⟨c, rest, rfl, first⟩ := text.begins
  have no_end : endOfLine? (c :: rest ++ (space ++ '=' :: (space' ++ (vs ++ after)))) = none :=
    endOfLine?_key first _
  have no_bracket : c ≠ '[' := by
    rintro rfl
    simp at first
  unfold line?
  rw [begins]
  split
  · next same => exact absurd (List.cons.inj same).1 no_bracket
  · next same => exact absurd (List.cons.inj same).1 no_bracket
  · rw [no_end, read]
    simp [skipped, further, ended]

theorem line?_text {line : Line} (text : LineText line cs) (ends : LineEnd after below) :
    line? (cs ++ after) = some (line, below) := by
  cases text with
  | blank spaces =>
    unfold line?
    rw [skipSpaces_spaces spaces (ends.stops (by decide) (by decide))]
    cases ends <;> rfl
  | comment spaces printable =>
    next space note =>
    have skipped : skipSpaces (space ++ '#' :: (note ++ after)) = '#' :: (note ++ after) :=
      skipSpaces_spaces spaces (by simp [isSpace])
    rw [List.append_assoc, List.cons_append, line?, skipped]
    simp [endOfLine?_comment printable ends]
  | header key =>
    simpa using line?_header key ends
  | entry key spaces spaces' value =>
    simpa using line?_entry key spaces spaces' (value?_text value) ends

end Lines

end VlanTrunking.Toml
