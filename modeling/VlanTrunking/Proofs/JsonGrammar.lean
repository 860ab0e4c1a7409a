import Mathlib.Data.List.Chain
import VlanTrunking.Proofs.JsonNumeral
import VlanTrunking.Proofs.JsonTokens

/-! The texts of JSON (RFC 8259), told apart from the reader. A text is a sequence of tokens with
gaps before and between them and at the end, and each token may be written in the ways that its kind
allows; where no two scalars follow one another, the gaps make no difference. So a text is read as a
value exactly if it is made of the tokens of this value. -/
namespace VlanTrunking

namespace Json

inductive UnitsText : List TextUnit → List Char → Prop
  | done : UnitsText [] []
  | plain {c : Char} {units : List TextUnit} {cs : List Char} :
      c ≠ '"' → c ≠ '\\' → 0x20 ≤ c.toNat → UnitsText units cs →
      UnitsText (.char c :: units) (c :: cs)
  | escaped {letter c : Char} {units : List TextUnit} {cs : List Char} :
      shortEscapes.lookup letter = some c → UnitsText units cs →
      UnitsText (.char c :: units) ('\\' :: letter :: cs)
  | numbered {digits : List Char} {n : Nat} {units : List TextUnit} {cs : List Char} :
      digits.length = 4 → Text.readHexDigits digits = some n → UnitsText units cs →
      UnitsText (.code n :: units) ('\\' :: 'u' :: (digits ++ cs))

/-- How a token may be written. -/
inductive Lexeme : Token → List Char → Prop
  | mark {c : Char} {t : Token} : punctuation? c = some t → Lexeme t [c]
  | word {cs : List Char} {s : Scalar} : wordScalar? cs = some s → Lexeme (.scalar s) cs
  | numeral {n : Numeral} {cs : List Char} : NumeralText n cs → Lexeme (.scalar (.number n)) cs
  | text {units : List TextUnit} {cs : List Char} :
      UnitsText units cs → Lexeme (.scalar (.string units)) ('"' :: (cs ++ ['"']))

def Gap (cs : List Char) : Prop := ∀ c ∈ cs, isInsignificant c = true

/-- A text of tokens, with gaps before and between them and at the end. -/
inductive LaidOut : List Token → List Char → Prop
  | done {gap : List Char} : Gap gap → LaidOut [] gap
  | token {gap lexeme rest : List Char} {t : Token} {ts : List Token} :
      Gap gap → Lexeme t lexeme → LaidOut ts rest → LaidOut (t :: ts) (gap ++ (lexeme ++ rest))

def Token.isScalar : Token → Bool
  | .scalar _ => true
  | _ => false

def Parted (first second : Token) : Prop := ¬(first.isScalar = true ∧ second.isScalar = true)

namespace Lexer

def Ends (c : Char) : Prop := isInsignificant c = true ∨ (punctuation? c).isSome = true

/-- These tokens have been read, latest first, if nothing more belongs to the present one. -/
structure Holds (l : Lexer) (tokens : List Token) : Prop where
  finish : l.finish = some tokens.reverse
  step : ∀ c, Ends c → l.step c = start tokens c

variable {before : List Token} {l : Lexer}

theorem holds_between (before : List Token) : Holds ⟨before, .between⟩ before :=
  ⟨rfl, fun _ _ => rfl⟩

def enders : List Char := [' ', '\t', '\n', '\r', '{', '}', '[', ']', ':', ',']

theorem Ends.mem {c : Char} (ends : Ends c) : c ∈ enders := by
  rcases ends with gap | mark
  · simp only [isInsignificant, Bool.or_eq_true, decide_eq_true_eq] at gap
    rcases gap with ((rfl | rfl) | rfl) | rfl <;> decide
  · unfold punctuation? at mark
    split at mark
    all_goals first | decide | cases mark

theorem Ends.apart {c : Char} {p : Char → Bool} (ends : Ends c)
    (none_of_these : enders.all (!p ·) = true) : p c = false := by
  simpa using List.all_eq_true.mp none_of_these c ends.mem

theorem start_of_gap {c : Char} (gap : isInsignificant c = true) :
    start before c = some ⟨before, .between⟩ := if_pos gap

theorem start_of_mark {c : Char} {t : Token} (mark : punctuation? c = some t) :
    start before c = some ⟨t :: before, .between⟩ := by
  unfold punctuation? at mark
  split at mark <;> cases mark <;> rfl

theorem run_gap {gap : List Char} (blank : Gap gap) (holds : l.Holds before) :
    ∃ l', gap.foldlM step l = some l' ∧ l'.Holds before ∧ (l' = l ∨ l' = ⟨before, .between⟩) := by
  cases gap with
  | nil => exact ⟨l, rfl, holds, .inl rfl⟩
  | cons c rest =>
    have stays : ∀ rest : List Char, Gap rest →
        rest.foldlM step ⟨before, .between⟩ = some ⟨before, .between⟩ := by
      intro rest blank
      induction rest with
      | nil => rfl
      | cons d rest ih =>
        obtain ⟨first, later⟩ := List.forall_mem_cons.mp blank
        rw [List.foldlM_cons, (holds_between before).step d (.inl first), start_of_gap first]
        exact ih later
    obtain ⟨first, later⟩ := List.forall_mem_cons.mp blank
    refine ⟨⟨before, .between⟩, ?_, holds_between before, .inr rfl⟩
    rw [List.foldlM_cons, holds.step c (.inl first), start_of_gap first]
    exact stays rest later

theorem run_word {cs : List Char} {s : Scalar} (word : wordScalar? cs = some s) :
    ∃ l, cs.foldlM step ⟨before, .between⟩ = some l ∧ l.Holds (.scalar s :: before) := by
  have read : cs.foldlM step ⟨before, .between⟩ = some ⟨before, .word cs.reverse⟩ := by
    unfold wordScalar? at word
    split at word <;> first | rfl | cases word
  refine ⟨_, read, ?_, ?_⟩
  · simp [finish, endWord, word]
  · intro c ends
    have no_letter : c.isAlpha = false := ends.apart (by decide)
    simp [step, no_letter, endWord, word]

theorem run_numeral {cs : List Char} {n : Numeral} (numeral : NumeralText n cs) :
    ∃ l, cs.foldlM step ⟨before, .between⟩ = some l ∧
      l.Holds (.scalar (.number n) :: before) := by
  have value := Numeral.read?_eq_some_iff.mpr numeral
  have goes_on : ∀ (rest seen : List Char), (∀ d ∈ rest, isNumeralChar d = true) →
      rest.foldlM step ⟨before, .numeral seen⟩ =
        some ⟨before, .numeral (rest.reverse ++ seen)⟩ := by
    intro rest
    induction rest with
    | nil => simp
    | cons d rest ih =>
      intro seen chars
      obtain ⟨first, later⟩ := List.forall_mem_cons.mp chars
      have one : step ⟨before, .numeral seen⟩ d = some ⟨before, .numeral (d :: seen)⟩ :=
        if_pos first
      rw [List.foldlM_cons, one, Option.bind_eq_bind, Option.bind_some, ih (d :: seen) later]
      simp
  obtain ⟨c, rest, rfl, first, later⟩ := numeral.chars
  have opened : step ⟨before, .between⟩ c = some ⟨before, .numeral [c]⟩ := by
    rcases first with rfl | digit
    · rfl
    · have no_gap : isInsignificant c = false := by
        by_contra gap
        have ends : Ends c := .inl (by simpa using gap)
        rw [ends.apart (show enders.all (!Char.isDigit ·) = true by decide)] at digit
        cases digit
      have no_quote : c ≠ '"' := by
        rintro rfl
        cases digit
      simp [step, start, no_gap, no_quote, digit]
  have read : (c :: rest).foldlM step ⟨before, .between⟩ =
      some ⟨before, .numeral (c :: rest).reverse⟩ := by
    rw [List.foldlM_cons, opened, Option.bind_eq_bind, Option.bind_some, goes_on rest [c] later]
    simp
  refine ⟨_, read, ?_, ?_⟩
  · simp [finish, endNumeral, value]
  · intro d ends
    have no_part : isNumeralChar d = false := ends.apart (by decide)
    simp [step, no_part, endNumeral, value]

theorem run_codeUnit {digits : List Char} {n : Nat} {seen : List TextUnit}
    (four : digits.length = 4) (value : Text.readHexDigits digits = some n) :
    digits.foldlM step ⟨before, .codeUnit seen []⟩ = some ⟨before, .quoted (.code n :: seen)⟩ := by
  have hex : ∀ c ∈ digits, (Text.hexDigitValue? c).isNone = false := fun c listed => by
    simpa using Text.isSome_of_mem value listed
  obtain ⟨a, b, c, d, rfl⟩ := List.length_eq_four.mp four
  simp only [List.forall_mem_cons] at hex
  simp [step, hex, value]

theorem run_units {units : List TextUnit} {cs : List Char} (text : UnitsText units cs)
    (seen : List TextUnit) : cs.foldlM step ⟨before, .quoted seen⟩ =
      some ⟨before, .quoted (units.reverse ++ seen)⟩ := by
  induction text generalizing seen with
  | done => rfl
  | plain no_quote no_slash printable _ ih =>
    simp [step, no_quote, no_slash, Nat.not_lt.mpr printable, ih]
  | escaped short _ ih =>
    next letter _ _ _ _ =>
    have other : letter ≠ 'u' := by
      rintro rfl
      cases short
    simp [step, other, short, ih]
  | numbered four value _ ih =>
    next digits n units cs _ =>
    have number : digits.foldlM step ⟨before, .codeUnit seen []⟩ =
        some ⟨before, .quoted (.code n :: seen)⟩ := run_codeUnit four value
    simp [step, number, ih]

theorem run_string {units : List TextUnit} {cs : List Char} (text : UnitsText units cs) :
    ('"' :: (cs ++ ['"'])).foldlM step ⟨before, .between⟩ =
      some ⟨.scalar (.string units) :: before, .between⟩ := by
  have opened : step ⟨before, .between⟩ '"' = some ⟨before, .quoted []⟩ := rfl
  rw [List.foldlM_cons, opened, Option.bind_eq_bind, Option.bind_some, List.foldlM_append,
    run_units text]
  simp [step]

theorem run_lexeme {t : Token} {lexeme : List Char} (written : Lexeme t lexeme)
    (holds : l.Holds before) (apart : t.isScalar = true → l = ⟨before, .between⟩) :
    ∃ l', lexeme.foldlM step l = some l' ∧ l'.Holds (t :: before) ∧
      (t.isScalar = false → l' = ⟨t :: before, .between⟩) := by
  cases written with
  | mark mark =>
    next c =>
    have ends : Ends c := .inr (by rw [mark]; rfl)
    refine ⟨⟨t :: before, .between⟩, ?_, holds_between _, fun _ => rfl⟩
    rw [List.foldlM_cons, holds.step c ends, start_of_mark mark]
    rfl
  | word word =>
    rw [apart rfl]
    obtain ⟨l', read, holds⟩ := run_word word
    exact ⟨l', read, holds, fun other => nomatch other⟩
  | numeral numeral =>
    rw [apart rfl]
    obtain ⟨l', read, holds⟩ := run_numeral numeral
    exact ⟨l', read, holds, fun other => nomatch other⟩
  | text text =>
    rw [apart rfl]
    exact ⟨_, run_string text, holds_between _, fun other => nomatch other⟩

theorem run_laidOut {ts : List Token} {cs : List Char} (laid : LaidOut ts cs)
    (parted : ts.IsChain Parted) (holds : l.Holds before)
    (apart : ∀ t ∈ ts.head?, t.isScalar = true → l = ⟨before, .between⟩) :
    ∃ l', cs.foldlM step l = some l' ∧ l'.Holds (ts.reverse ++ before) := by
  induction laid generalizing l before with
  | done gap =>
    obtain ⟨l', read, holds, -⟩ := run_gap gap holds
    exact ⟨l', read, holds⟩
  | token gap lexeme _ ih =>
    next t ts _ =>
    obtain ⟨l₁, passed, holds, same⟩ := run_gap gap holds
    have still_apart : t.isScalar = true → l₁ = ⟨before, .between⟩ := fun scalar => by
      rcases same with rfl | rfl
      · exact apart t rfl scalar
      · rfl
    obtain ⟨l₂, read, holds, between⟩ := run_lexeme lexeme holds still_apart
    -- Before a scalar stands a mark, and a mark leaves no token open.
    have next_apart : ∀ t' ∈ ts.head?, t'.isScalar = true → l₂ = ⟨t :: before, .between⟩ := by
      intro t' first scalar
      have two := (List.isChain_cons.mp parted).1 t' first
      exact between (by simpa [Parted, scalar] using two)
    obtain ⟨l₃, later, holds⟩ := ih (List.isChain_cons.mp parted).2 holds next_apart
    refine ⟨l₃, ?_, by simpa using holds⟩
    rw [List.foldlM_append, passed, Option.bind_eq_bind, Option.bind_some, List.foldlM_append, read]
    exact later

end Lexer

section Backward

theorem LaidOut.append {ts ts' : List Token} {cs cs' : List Char} (first : LaidOut ts cs)
    (second : LaidOut ts' cs') : LaidOut (ts ++ ts') (cs ++ cs') := by
  induction first with
  | done gap =>
    cases second with
    | done gap' => exact .done (List.forall_mem_append.mpr ⟨gap, gap'⟩)
    | token gap' lexeme rest =>
      rw [← List.append_assoc]
      exact .token (List.forall_mem_append.mpr ⟨gap, gap'⟩) lexeme rest
  | token gap lexeme _ ih =>
    rw [List.append_assoc, List.append_assoc]
    exact .token gap lexeme ih

theorem LaidOut.concat {ts : List Token} {cs lexeme : List Char} {t : Token} (laid : LaidOut ts cs)
    (written : Lexeme t lexeme) : LaidOut (ts ++ [t]) (cs ++ lexeme) := by
  have one : LaidOut [t] ([] ++ (lexeme ++ [])) :=
    .token (by simp [Gap]) written (.done (by simp [Gap]))
  rw [List.nil_append, List.append_nil] at one
  exact laid.append one

theorem LaidOut.concat_gap {ts : List Token} {cs : List Char} {c : Char} (laid : LaidOut ts cs)
    (gap : isInsignificant c = true) : LaidOut ts (cs ++ [c]) := by
  have more : LaidOut [] [c] := .done (by simpa [Gap] using gap)
  simpa using laid.append more

theorem UnitsText.append {units units' : List TextUnit} {cs cs' : List Char}
    (first : UnitsText units cs) (second : UnitsText units' cs') :
    UnitsText (units ++ units') (cs ++ cs') := by
  induction first with
  | done => exact second
  | plain no_quote no_slash printable _ ih => exact .plain no_quote no_slash printable ih
  | escaped short _ ih => exact .escaped short ih
  | numbered four value _ ih =>
    simp only [List.cons_append, List.append_assoc]
    exact .numbered four value ih

namespace Lexer

/-- The part of a token that has been seen. -/
def Seen : Scan → List Char → Prop
  | .between, part => part = []
  | .word seen, part => part = seen.reverse
  | .numeral seen, part => part = seen.reverse
  | .quoted seen, part => ∃ cs, UnitsText seen.reverse cs ∧ part = '"' :: cs
  | .escape seen, part => ∃ cs, UnitsText seen.reverse cs ∧ part = '"' :: (cs ++ ['\\'])
  | .codeUnit seen digits, part =>
    ∃ cs, UnitsText seen.reverse cs ∧ digits.length ≤ 3 ∧
      part = '"' :: (cs ++ '\\' :: 'u' :: digits.reverse)

/-- What has been read of a text: whole tokens and a part of the next one. -/
def Reads (l : Lexer) (cs : List Char) : Prop :=
  ∃ whole part, LaidOut l.tokens.reverse whole ∧ Seen l.scan part ∧ cs = whole ++ part

variable {ts : List Token} {l l' : Lexer} {cs : List Char} {c : Char}

theorem reads_start (laid : LaidOut ts.reverse cs) (h : start ts c = some l') :
    l'.Reads (cs ++ [c]) := by
  unfold start at h
  split at h
  · next gap =>
    cases h
    exact ⟨_, [], laid.concat_gap gap, rfl, by simp⟩
  · split at h
    · next quote =>
      cases h
      exact ⟨cs, [c], laid, ⟨[], .done, by rw [quote]⟩, rfl⟩
    · split at h
      · cases h
        exact ⟨cs, [c], laid, rfl, rfl⟩
      · split at h
        · cases h
          exact ⟨cs, [c], laid, rfl, rfl⟩
        · obtain ⟨t, mark, rfl⟩ := Option.map_eq_some_iff.mp h
          refine ⟨cs ++ [c], [], ?_, rfl, by simp⟩
          rw [List.reverse_cons]
          exact laid.concat (.mark mark)

theorem laidOut_of_endWord {seen whole : List Char} {ts' : List Token}
    (laid : LaidOut ts.reverse whole) (h : endWord ts seen = some ts') :
    LaidOut ts'.reverse (whole ++ seen.reverse) := by
  obtain ⟨s, word, rfl⟩ := Option.map_eq_some_iff.mp h
  rw [List.reverse_cons]
  exact laid.concat (.word word)

theorem laidOut_of_endNumeral {seen whole : List Char} {ts' : List Token}
    (laid : LaidOut ts.reverse whole) (h : endNumeral ts seen = some ts') :
    LaidOut ts'.reverse (whole ++ seen.reverse) := by
  obtain ⟨n, numeral, rfl⟩ := Option.map_eq_some_iff.mp h
  rw [List.reverse_cons]
  exact laid.concat (.numeral (Numeral.read?_eq_some_iff.mp numeral))

theorem reads_word {letters : List Char} (laid : LaidOut ts.reverse cs)
    (h : step ⟨ts, .word letters⟩ c = some l') : l'.Reads (cs ++ letters.reverse ++ [c]) := by
  simp only [step] at h
  split at h
  · cases h
    exact ⟨cs, _, laid, rfl, by simp⟩
  · obtain ⟨ts', word, next⟩ := Option.bind_eq_some_iff.mp h
    exact reads_start (laidOut_of_endWord laid word) next

theorem reads_numeral {chars : List Char} (laid : LaidOut ts.reverse cs)
    (h : step ⟨ts, .numeral chars⟩ c = some l') : l'.Reads (cs ++ chars.reverse ++ [c]) := by
  simp only [step] at h
  split at h
  · cases h
    exact ⟨cs, _, laid, rfl, by simp⟩
  · obtain ⟨ts', numeral, next⟩ := Option.bind_eq_some_iff.mp h
    exact reads_start (laidOut_of_endNumeral laid numeral) next

variable {units : List TextUnit} {inner : List Char}

theorem reads_unit {u : TextUnit} {part : List Char} (laid : LaidOut ts.reverse cs)
    (text : UnitsText units.reverse inner) (one : UnitsText [u] part) :
    Reads ⟨ts, .quoted (u :: units)⟩ (cs ++ '"' :: (inner ++ part)) := by
  refine ⟨cs, _, laid, ⟨inner ++ part, ?_, rfl⟩, rfl⟩
  rw [List.reverse_cons]
  exact text.append one

theorem reads_quoted (laid : LaidOut ts.reverse cs) (text : UnitsText units.reverse inner)
    (h : step ⟨ts, .quoted units⟩ c = some l') : l'.Reads (cs ++ '"' :: (inner ++ [c])) := by
  simp only [step] at h
  split at h
  · next quote =>
    cases h
    refine ⟨cs ++ '"' :: (inner ++ ['"']), [], ?_, rfl, by simp [quote]⟩
    rw [List.reverse_cons]
    exact laid.concat (.text text)
  · split at h
    · next slash =>
      cases h
      exact ⟨cs, _, laid, ⟨inner, text, rfl⟩, by rw [slash]⟩
    · split at h
      · cases h
      · next no_quote no_slash printable =>
        cases h
        exact reads_unit laid text (.plain no_quote no_slash (Nat.not_lt.mp printable) .done)

theorem reads_escape (laid : LaidOut ts.reverse cs) (text : UnitsText units.reverse inner)
    (h : step ⟨ts, .escape units⟩ c = some l') :
    l'.Reads (cs ++ '"' :: (inner ++ ['\\', c])) := by
  simp only [step] at h
  split at h
  · next number =>
    cases h
    exact ⟨cs, _, laid, ⟨inner, text, by simp, rfl⟩, by simp [number]⟩
  · obtain ⟨d, short, rfl⟩ := Option.map_eq_some_iff.mp h
    exact reads_unit laid text (.escaped short .done)

theorem reads_codeUnit {digits : List Char} (laid : LaidOut ts.reverse cs)
    (text : UnitsText units.reverse inner) (few : digits.length ≤ 3)
    (h : step ⟨ts, .codeUnit units digits⟩ c = some l') :
    l'.Reads (cs ++ '"' :: (inner ++ '\\' :: 'u' :: (c :: digits).reverse)) := by
  simp only [step] at h
  split at h
  · cases h
  · split at h
    · next room =>
      cases h
      exact ⟨cs, _, laid, ⟨inner, text, room, rfl⟩, rfl⟩
    · next full =>
      obtain ⟨n, value, rfl⟩ := Option.map_eq_some_iff.mp h
      have four : (c :: digits).reverse.length = 4 := by
        rw [List.length_reverse, List.length_cons]
        omega
      have one := UnitsText.numbered four value .done
      rw [List.append_nil] at one
      exact reads_unit laid text one

theorem reads_step (reads : l.Reads cs) (h : l.step c = some l') : l'.Reads (cs ++ [c]) := by
  obtain ⟨ts, scan⟩ := l
  obtain ⟨whole, part, laid, seen, rfl⟩ := reads
  cases scan with
  | between =>
    cases seen
    rw [List.append_nil]
    exact reads_start laid h
  | word letters =>
    cases seen
    exact reads_word laid h
  | numeral chars =>
    cases seen
    exact reads_numeral laid h
  | quoted units =>
    obtain ⟨inner, text, rfl⟩ := seen
    simpa using reads_quoted laid text h
  | escape units =>
    obtain ⟨inner, text, rfl⟩ := seen
    simpa using reads_escape laid text h
  | codeUnit units digits =>
    obtain ⟨inner, text, few, rfl⟩ := seen
    simpa using reads_codeUnit laid text few h

theorem reads_run {rest : List Char} (reads : l.Reads cs) (h : rest.foldlM step l = some l') :
    l'.Reads (cs ++ rest) := by
  induction rest generalizing l cs with
  | nil =>
    cases h
    rwa [List.append_nil]
  | cons c rest ih =>
    obtain ⟨next, first, later⟩ := Option.bind_eq_some_iff.mp h
    have all := ih (reads_step reads first) later
    rwa [List.append_assoc, List.singleton_append] at all

theorem laidOut_of_finish (reads : l.Reads cs) (h : l.finish = some ts) : LaidOut ts cs := by
  obtain ⟨tokens, scan⟩ := l
  obtain ⟨whole, part, laid, seen, rfl⟩ := reads
  unfold finish at h
  dsimp only at h laid seen
  split at h
  · cases seen
    cases h
    rwa [List.append_nil]
  · cases seen
    obtain ⟨tokens', word, rfl⟩ := Option.map_eq_some_iff.mp h
    exact laidOut_of_endWord laid word
  · cases seen
    obtain ⟨tokens', numeral, rfl⟩ := Option.map_eq_some_iff.mp h
    exact laidOut_of_endNumeral laid numeral
  · cases h

end Lexer

end Backward

section Whole

theorem parted_append {ts ts' : List Token} (t : Token) (mark : t.isScalar = false)
    (first : ts.IsChain Parted) (second : ts'.IsChain Parted) :
    (ts ++ t :: ts').IsChain Parted := by
  rw [List.isChain_append, List.isChain_cons]
  refine ⟨first, ⟨?_, second⟩, ?_⟩ <;> simp [Parted, mark]

mutual

theorem parted_tokensOf : ∀ v : Json, (tokensOf v).IsChain Parted
  | .scalar s => List.isChain_singleton _
  | .array items => by
    have inner := parted_append .closeBracket rfl (parted_tokensOfItems items) .nil
    exact parted_append .openBracket rfl .nil inner
  | .object members => by
    have inner := parted_append .closeBrace rfl (parted_tokensOfMembers members) .nil
    exact parted_append .openBrace rfl .nil inner

theorem parted_tokensOfItems : ∀ items : List Json, (tokensOfItems items).IsChain Parted
  | [] => .nil
  | [v] => parted_tokensOf v
  | v :: next :: rest =>
    parted_append .comma rfl (parted_tokensOf v) (parted_tokensOfItems (next :: rest))

theorem parted_tokensOfMembers : ∀ members : List (List TextUnit × Json),
    (tokensOfMembers members).IsChain Parted
  | [] => .nil
  | [(_, v)] => parted_append .colon rfl (List.isChain_singleton _) (parted_tokensOf v)
  | (_, v) :: next :: rest => by
    have value :=
      parted_append .comma rfl (parted_tokensOf v) (parted_tokensOfMembers (next :: rest))
    exact parted_append .colon rfl (List.isChain_singleton _) value

end

theorem laidOut_of_tokens? {ts : List Token} {cs : List Char} (h : tokens? cs = some ts) :
    LaidOut ts cs := by
  obtain ⟨l, run, finished⟩ := Option.bind_eq_some_iff.mp h
  have begun : Lexer.Reads {} [] := ⟨[], [], .done (by simp [Gap]), rfl, rfl⟩
  exact Lexer.laidOut_of_finish (Lexer.reads_run begun run) finished

theorem tokens?_of_laidOut {ts : List Token} {cs : List Char} (laid : LaidOut ts cs)
    (parted : ts.IsChain Parted) : tokens? cs = some ts := by
  obtain ⟨l, run, holds⟩ := Lexer.run_laidOut laid parted (Lexer.holds_between []) fun _ _ _ => rfl
  have whole : cs.foldlM Lexer.step {} = some l := run
  rw [tokens?, whole, Option.bind_some, holds.finish]
  simp

/-- A text is read as a value exactly if it is made of the tokens of this value. -/
theorem read?_eq_some_iff {text : String} {v : Json} :
    read? text = some v ↔ LaidOut (tokensOf v) text.toList := by
  constructor
  · intro read
    obtain ⟨ts, lexed, value⟩ := Option.bind_eq_some_iff.mp read
    rw [← ofTokens?_eq_some_iff.mp value]
    exact laidOut_of_tokens? lexed
  · intro laid
    rw [read?, tokens?_of_laidOut laid (parted_tokensOf v), Option.bind_some,
      ofTokens?_eq_some_iff.mpr rfl]

end Whole

end Json

end VlanTrunking
