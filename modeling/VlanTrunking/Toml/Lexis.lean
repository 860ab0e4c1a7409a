import VlanTrunking.Text.Hexadecimal

/-! The characters of TOML: blanks and line ends, comments, strings and the parts of keys. Every
reader here takes a text apart from the front and returns what is left of it. -/
namespace VlanTrunking.Toml

def isSpace (c : Char) : Bool := c = ' ' || c = '\t'

def isPrintable (c : Char) : Bool := c = '\t' || (0x20 ≤ c.toNat && c.toNat ≠ 0x7F)

def skipSpaces (cs : List Char) : List Char := cs.dropWhile isSpace

def newline? : List Char → Option (List Char)
  | '\n' :: cs => some cs
  | '\r' :: '\n' :: cs => some cs
  | _ => none

def endOfLine? (cs : List Char) : Option (List Char) :=
  let rest := match skipSpaces cs with
    | '#' :: cs => cs.dropWhile isPrintable
    | cs => cs
  if rest.isEmpty then some [] else newline? rest

/-- Passes over blanks, line ends and comments; the flag tells whether a comment is being read. -/
def skipLayout (inComment : Bool) : List Char → List Char
  | [] => []
  | c :: cs =>
    if c = '\n' || (c = '\r' && cs.head? = some '\n') then skipLayout false cs
    else if inComment then (if isPrintable c then skipLayout true cs else c :: cs)
    else if isSpace c then skipLayout false cs
    else if c = '#' then skipLayout true cs
    else c :: cs

def shortEscapes : List (Char × Char) :=
  [('b', '\x08'), ('t', '\t'), ('n', '\n'), ('f', '\x0c'), ('r', '\r'), ('"', '"'), ('\\', '\\')]

/-- Where in a string with escapes the reader stands: at a character, after a backslash, in a line
break that a backslash hides, or in a code point with the number of digits still to come. -/
inductive StringScan where
  | plain
  | escape
  | hidden (broken : Bool)
  | codePoint (left value : Nat)
  deriving DecidableEq, Repr

def scalarChar? (n : Nat) : Option Char :=
  if n.isValidChar then some (Char.ofNat n) else none

abbrev Scanned := Option (List Char × List Char)

def Scanned.cons (c : Char) (s : Scanned) : Scanned := s.map fun (cs, rest) => (c :: cs, rest)

def basicString : StringScan → List Char → Scanned
  | _, [] => none
  | .codePoint left value, c :: cs =>
    match Text.hexDigitValue? c with
    | none => none
    | some d =>
      let value := 16 * value + d
      if left = 1 then
        match scalarChar? value with
        | some char => (basicString .plain cs).cons char
        | none => none
      else basicString (.codePoint (left - 1) value) cs
  | .escape, c :: cs =>
    if c = 'u' then basicString (.codePoint 4 0) cs
    else if c = 'U' then basicString (.codePoint 8 0) cs
    else
      match shortEscapes.lookup c with
      | some char => (basicString .plain cs).cons char
      | none => none
  | _, c :: cs =>
    if c = '"' then some ([], cs)
    else if c = '\\' then basicString .escape cs
    else if isPrintable c then (basicString .plain cs).cons c
    else none

/-- The marks at the start of a text and what is left after those that close a string. A run of
three closes; up to two more marks before these belong to the string. -/
def closeMarks? (mark : Char) (cs : List Char) : Scanned :=
  let run := (cs.takeWhile (· = mark)).length
  if run < 3 then none else some (List.replicate (min run 5 - 3) mark, cs.drop (min run 5))

def basicText : StringScan → List Char → Scanned
  | _, [] => none
  | .codePoint left value, c :: cs =>
    match Text.hexDigitValue? c with
    | none => none
    | some d =>
      let value := 16 * value + d
      if left = 1 then
        match scalarChar? value with
        | some char => (basicText .plain cs).cons char
        | none => none
      else basicText (.codePoint (left - 1) value) cs
  | .escape, c :: cs =>
    if isSpace c || c = '\r' && cs.head? = some '\n' then basicText (.hidden false) cs
    else if c = '\n' then basicText (.hidden true) cs
    else if c = 'u' then basicText (.codePoint 4 0) cs
    else if c = 'U' then basicText (.codePoint 8 0) cs
    else
      match shortEscapes.lookup c with
      | some char => (basicText .plain cs).cons char
      | none => none
  | scan, c :: cs =>
    let inBreak := scan matches .hidden _
    if inBreak && (isSpace c || c = '\r' && cs.head? = some '\n') then basicText scan cs
    else if inBreak && c = '\n' then basicText (.hidden true) cs
    else if scan = .hidden false then none
    else if c = '"' then
      match closeMarks? '"' (c :: cs) with
      | some closed => some closed
      | none => (basicText .plain cs).cons c
    else if c = '\\' then basicText .escape cs
    else if c = '\n' then (basicText .plain cs).cons c
    else if c = '\r' && cs.head? = some '\n' then basicText .plain cs
    else if isPrintable c then (basicText .plain cs).cons c
    else none

def literalString : List Char → Scanned
  | [] => none
  | c :: cs =>
    if c = '\'' then some ([], cs)
    else if isPrintable c then (literalString cs).cons c
    else none

def literalText : List Char → Scanned
  | [] => none
  | c :: cs =>
    if c = '\'' then
      match closeMarks? '\'' (c :: cs) with
      | some closed => some closed
      | none => (literalText cs).cons c
    else if c = '\n' then (literalText cs).cons c
    else if c = '\r' && cs.head? = some '\n' then literalText cs
    else if isPrintable c then (literalText cs).cons c
    else none

def skipFirstNewline (cs : List Char) : List Char := (newline? cs).getD cs

def string? : List Char → Scanned
  | '"' :: '"' :: '"' :: cs => basicText .plain (skipFirstNewline cs)
  | '"' :: cs => basicString .plain cs
  | '\'' :: '\'' :: '\'' :: cs => literalText (skipFirstNewline cs)
  | '\'' :: cs => literalString cs
  | _ => none

def isBareKeyChar (c : Char) : Bool := c.isAlphanum || c = '_' || c = '-'

def keyPart? : List Char → Option (String × List Char)
  | '"' :: cs => (basicString .plain cs).map fun (s, rest) => (String.ofList s, rest)
  | '\'' :: cs => (literalString cs).map fun (s, rest) => (String.ofList s, rest)
  | cs =>
    let bare := cs.takeWhile isBareKeyChar
    if bare.isEmpty then none else some (String.ofList bare, cs.dropWhile isBareKeyChar)

def keyParts? : (limit : Nat) → List Char → Option (List String × List Char)
  | 0, _ => none
  | limit + 1, cs => do
    let (part, rest) ← keyPart? (skipSpaces cs)
    match skipSpaces rest with
    | '.' :: rest =>
      let (parts, rest) ← keyParts? limit rest
      return (part :: parts, rest)
    | rest => return ([part], rest)

def nestingLimit : Nat := 79

def key? (cs : List Char) : Option (List String × List Char) := keyParts? nestingLimit cs

/-! What a reader of strings does with one character, said once for every reader. -/

section Strings

/-- What a reader of strings makes of a character when what is behind it begins as `ahead` says. It
refuses it, passes over it, gives a character for it, or closes the string here if it can. -/
inductive Move (read : StringScan → List Char → Scanned) (closed : List Char → Scanned)
    (ahead : List Char → Prop) (here : List Char → Scanned) : Prop
  | refuses (h : ∀ cs, ahead cs → here cs = none)
  | passes (scan : StringScan) (h : ∀ cs, ahead cs → here cs = read scan cs)
  | gives (char : Char) (h : ∀ cs, ahead cs → here cs = (read .plain cs).cons char)
  | closes (char : Char)
      (h : ∀ cs, ahead cs → here cs = (closed cs).or ((read .plain cs).cons char))

theorem Scanned.of_cons {s : Scanned} {c : Char} {str rest : List Char}
    (h : s.cons c = some (str, rest)) : ∃ str', s = some (str', rest) := by
  obtain ⟨⟨str', rest'⟩, hs, heq⟩ := Option.map_eq_some_iff.mp h
  simp only [Prod.mk.injEq] at heq
  exact ⟨str', by rw [hs, heq.2]⟩

namespace Move

variable {read : StringScan → List Char → Scanned} {closed here : List Char → Scanned}
  {ahead : List Char → Prop} {cs rest str : List Char}

theorem length_le (move : Move read closed ahead here) (hahead : ahead cs)
    (hlater : ∀ {scan str}, read scan cs = some (str, rest) → rest.length < cs.length)
    (hclosed : ∀ {str}, closed cs = some (str, rest) → rest.length ≤ cs.length)
    (h : here cs = some (str, rest)) : rest.length ≤ cs.length := by
  have hcons {char str} (h : (read .plain cs).cons char = some (str, rest)) :
      rest.length ≤ cs.length :=
    (Scanned.of_cons h).elim fun _ h => Nat.le_of_lt (hlater h)
  cases move with
  | refuses hmove =>
    rw [hmove cs hahead] at h
    cases h
  | passes scan hmove =>
    rw [hmove cs hahead] at h
    exact Nat.le_of_lt (hlater h)
  | gives char hmove =>
    rw [hmove cs hahead] at h
    exact hcons h
  | closes char hmove =>
    rw [hmove cs hahead, Option.or_eq_some_iff] at h
    rcases h with h | ⟨_, h⟩
    · exact hclosed h
    · exact hcons h

theorem of_eq {other : List Char → Scanned} (move : Move read closed ahead other)
    (same : ∀ cs, ahead cs → here cs = other cs) : Move read closed ahead here := by
  cases move with
  | refuses h => exact .refuses fun cs hcs => (same cs hcs).trans (h cs hcs)
  | passes scan h => exact .passes scan fun cs hcs => (same cs hcs).trans (h cs hcs)
  | gives char h => exact .gives char fun cs hcs => (same cs hcs).trans (h cs hcs)
  | closes char h => exact .closes char fun cs hcs => (same cs hcs).trans (h cs hcs)

end Move

variable {read : StringScan → List Char → Scanned} {closed : List Char → Scanned}
  {ahead : List Char → Prop}

theorem move_codePoint (left value : Nat) (c : Char) :
    Move read closed ahead fun cs =>
      match Text.hexDigitValue? c with
      | none => none
      | some d =>
        if left = 1 then
          match scalarChar? (16 * value + d) with
          | some char => (read .plain cs).cons char
          | none => none
        else read (.codePoint (left - 1) (16 * value + d)) cs := by
  cases digit : Text.hexDigitValue? c with
  | none => exact .refuses fun _ _ => rfl
  | some d =>
    by_cases last : left = 1
    · cases scalar : scalarChar? (16 * value + d) with
      | none => exact .refuses fun _ _ => by simp [last, scalar]
      | some char => exact .gives char fun _ _ => by simp [last, scalar]
    · exact .passes (.codePoint (left - 1) (16 * value + d)) fun _ _ => if_neg last

theorem move_escape (c : Char) :
    Move read closed ahead fun cs =>
      if c = 'u' then read (.codePoint 4 0) cs
      else if c = 'U' then read (.codePoint 8 0) cs
      else
        match shortEscapes.lookup c with
        | some char => (read .plain cs).cons char
        | none => none := by
  by_cases short : c = 'u'
  · exact .passes (.codePoint 4 0) fun _ _ => if_pos short
  by_cases long : c = 'U'
  · exact .passes (.codePoint 8 0) fun _ _ => by rw [if_neg short, if_pos long]
  cases escaped : shortEscapes.lookup c with
  | none => exact .refuses fun _ _ => by rw [if_neg short, if_neg long]
  | some char => exact .gives char fun _ _ => by rw [if_neg short, if_neg long]

theorem move_character (returned : Bool) (c : Char) :
    Move read closed ahead fun cs =>
      if returned then read .plain cs
      else if isPrintable c then (read .plain cs).cons c
      else none := by
  cases returned with
  | true => exact .passes .plain fun _ _ => rfl
  | false =>
    by_cases printable : isPrintable c = true
    · exact .gives c fun _ _ => if_pos printable
    · exact .refuses fun _ _ => if_neg printable

theorem basicString_plain (c : Char) :
    Move basicString (fun cs => some ([], cs)) (fun _ => True)
      fun cs => basicString .plain (c :: cs) := by
  have opened (cs : List Char) : basicString .plain (c :: cs) =
      if c = '"' then some ([], cs)
      else if c = '\\' then basicString .escape cs
      else if isPrintable c then (basicString .plain cs).cons c
      else none := rfl
  by_cases closing : c = '"'
  · exact .closes c fun cs _ => by rw [opened, if_pos closing, Option.some_or]
  by_cases slash : c = '\\'
  · exact .passes .escape fun cs _ => by rw [opened, if_neg closing, if_pos slash]
  · refine (move_character false c).of_eq fun cs _ => ?_
    rw [opened, if_neg closing, if_neg slash]
    rfl

theorem basicString_move (scan : StringScan) (c : Char) :
    Move basicString (fun cs => some ([], cs)) (fun _ => True)
      fun cs => basicString scan (c :: cs) := by
  cases scan with
  | codePoint left value => exact move_codePoint left value c
  | escape => exact move_escape c
  | plain => exact basicString_plain c
  | hidden broken => exact basicString_plain c

/-- Whether a carriage return stands here with a line feed behind it. -/
def AtReturn (returned : Bool) (c : Char) (cs : List Char) : Prop :=
  (c = '\r' && cs.head? = some '\n') = returned

variable (c : Char) (returned : Bool)

theorem basicText_plain :
    Move basicText (fun cs => closeMarks? '"' (c :: cs)) (AtReturn returned c)
      fun cs => basicText .plain (c :: cs) := by
  have opened (cs : List Char) : basicText .plain (c :: cs) =
      if c = '"' then
        match closeMarks? '"' (c :: cs) with
        | some closed => some closed
        | none => (basicText .plain cs).cons c
      else if c = '\\' then basicText .escape cs
      else if c = '\n' then (basicText .plain cs).cons c
      else if c = '\r' && cs.head? = some '\n' then basicText .plain cs
      else if isPrintable c then (basicText .plain cs).cons c
      else none := rfl
  by_cases closing : c = '"'
  · refine .closes c fun cs _ => ?_
    rw [opened, if_pos closing]
    cases closeMarks? '"' (c :: cs) <;> rfl
  by_cases slash : c = '\\'
  · exact .passes .escape fun _ _ => by rw [opened, if_neg closing, if_pos slash]
  by_cases feed : c = '\n'
  · exact .gives c fun _ _ => by rw [opened, if_neg closing, if_neg slash, if_pos feed]
  · refine (move_character returned c).of_eq fun cs h => ?_
    rw [opened, if_neg closing, if_neg slash, if_neg feed, h]

theorem basicText_hidden (broken : Bool) (cs : List Char) :
    basicText (.hidden broken) (c :: cs) =
      if isSpace c || c = '\r' && cs.head? = some '\n' then basicText (.hidden broken) cs
      else if c = '\n' then basicText (.hidden true) cs
      else if broken then basicText .plain (c :: cs)
      else none := by
  cases broken <;> simp [basicText]

theorem basicText_move (scan : StringScan) :
    Move basicText (fun cs => closeMarks? '"' (c :: cs)) (AtReturn returned c)
      fun cs => basicText scan (c :: cs) := by
  cases scan with
  | codePoint left value => exact move_codePoint left value c
  | escape =>
    by_cases layout : (isSpace c || returned) = true
    · exact .passes (.hidden false) fun _ h => by rw [basicText, h, if_pos layout]
    by_cases feed : c = '\n'
    · exact .passes (.hidden true) fun _ h => by rw [basicText, h, if_neg layout, if_pos feed]
    · refine (move_escape c).of_eq fun cs h => ?_
      rw [basicText, h, if_neg layout, if_neg feed]
  | plain => exact basicText_plain c returned
  | hidden broken =>
    by_cases layout : (isSpace c || returned) = true
    · exact .passes (.hidden broken) fun _ h => by rw [basicText_hidden, h, if_pos layout]
    by_cases feed : c = '\n'
    · exact .passes (.hidden true) fun _ h => by
        rw [basicText_hidden, h, if_neg layout, if_pos feed]
    cases broken with
    | false =>
      refine .refuses fun _ h => ?_
      rw [basicText_hidden, h, if_neg layout, if_neg feed]
      rfl
    | true =>
      refine (basicText_plain c returned).of_eq fun _ h => ?_
      rw [basicText_hidden, h, if_neg layout, if_neg feed]
      rfl

theorem literalText_move :
    Move (fun _ => literalText) (fun cs => closeMarks? '\'' (c :: cs)) (AtReturn returned c)
      fun cs => literalText (c :: cs) := by
  by_cases closing : c = '\''
  · refine .closes c fun cs _ => ?_
    rw [literalText, if_pos closing]
    cases closeMarks? '\'' (c :: cs) <;> rfl
  by_cases feed : c = '\n'
  · exact .gives c fun _ _ => by rw [literalText, if_neg closing, if_pos feed]
  · refine (move_character returned c).of_eq fun cs h => ?_
    rw [literalText, if_neg closing, if_neg feed, h]

end Strings

/-! What a reader leaves is shorter than what it is given, and passing over layout leaves no
more. -/

theorem length_skipSpaces_le (cs : List Char) : (skipSpaces cs).length ≤ cs.length :=
  (List.dropWhile_sublist _).length_le

theorem length_of_newline? {cs rest : List Char} (h : newline? cs = some rest) :
    rest.length < cs.length := by
  unfold newline? at h
  split at h <;> cases h <;> simp only [List.length_cons] <;> omega

theorem length_skipLayout_le (inComment : Bool) (cs : List Char) :
    (skipLayout inComment cs).length ≤ cs.length := by
  induction cs generalizing inComment with
  | nil => simp [skipLayout]
  | cons c cs ih =>
    have hcomment := ih true
    have hplain := ih false
    unfold skipLayout
    split
    · simp only [List.length_cons]; omega
    · split
      · split <;> simp only [List.length_cons] <;> omega
      · split
        · simp only [List.length_cons]; omega
        · split <;> simp only [List.length_cons] <;> omega

theorem length_of_endOfLine? {cs rest : List Char} (h : endOfLine? cs = some rest)
    (hcs : cs ≠ []) : rest.length < cs.length := by
  have hspaces := length_skipSpaces_le cs
  have hpos : 0 < cs.length := List.length_pos_iff.mpr hcs
  have hbehind : ∀ inner : List Char, inner.length ≤ cs.length →
      (if inner.isEmpty then some [] else newline? inner) = some rest →
      rest.length < cs.length := by
    intro inner hle h
    split at h
    · cases h
      exact hpos
    · exact Nat.lt_of_lt_of_le (length_of_newline? h) hle
  unfold endOfLine? at h
  simp only at h
  split at h
  · next comment heq =>
    rw [heq, List.length_cons] at hspaces
    have hcomment := (List.dropWhile_sublist isPrintable (l := comment)).length_le
    exact hbehind _ (by omega) h
  · exact hbehind _ hspaces h

theorem length_of_endOfLine?_le {cs rest : List Char} (h : endOfLine? cs = some rest) :
    rest.length ≤ cs.length := by
  by_cases hcs : cs = []
  · subst hcs
    cases h
    exact Nat.le_refl _
  · exact Nat.le_of_lt (length_of_endOfLine? h hcs)

theorem length_of_basicString {scan : StringScan} {cs str rest : List Char}
    (h : basicString scan cs = some (str, rest)) : rest.length < cs.length := by
  induction cs generalizing scan str with
  | nil => simp [basicString] at h
  | cons c cs ih =>
    refine Nat.lt_succ_of_le ((basicString_move scan c).length_le trivial ih ?_ h)
    rintro str hclosed
    cases hclosed
    exact Nat.le_refl _

theorem length_of_closeMarks? {mark : Char} {cs str rest : List Char}
    (h : closeMarks? mark cs = some (str, rest)) : rest.length < cs.length := by
  unfold closeMarks? at h
  have hrun := (List.takeWhile_sublist (· = mark) (l := cs)).length_le
  simp only at h
  split at h
  · cases h
  · simp only [Option.some.injEq, Prod.mk.injEq] at h
    rw [← h.2, List.length_drop]
    omega

theorem length_of_basicText {scan : StringScan} {cs str rest : List Char}
    (h : basicText scan cs = some (str, rest)) : rest.length < cs.length := by
  induction cs generalizing scan str with
  | nil => simp [basicText] at h
  | cons c cs ih =>
    refine Nat.lt_succ_of_le ((basicText_move c _ scan).length_le rfl ih ?_ h)
    exact fun hclosed => Nat.le_of_lt_succ (length_of_closeMarks? hclosed)

theorem length_of_literalString {cs str rest : List Char}
    (h : literalString cs = some (str, rest)) : rest.length < cs.length := by
  induction cs generalizing str with
  | nil => simp [literalString] at h
  | cons c cs ih =>
    unfold literalString at h
    split at h
    · simp_all
    · split at h
      · obtain ⟨_, h⟩ := Scanned.of_cons h
        exact Nat.lt_succ_of_lt (ih h)
      · cases h

theorem length_of_literalText {cs str rest : List Char}
    (h : literalText cs = some (str, rest)) : rest.length < cs.length := by
  induction cs generalizing str with
  | nil => simp [literalText] at h
  | cons c cs ih =>
    refine Nat.lt_succ_of_le ((literalText_move c _).length_le rfl ih ?_ h)
    exact fun hclosed => Nat.le_of_lt_succ (length_of_closeMarks? hclosed)

theorem length_skipFirstNewline_le (cs : List Char) :
    (skipFirstNewline cs).length ≤ cs.length := by
  unfold skipFirstNewline
  cases h : newline? cs with
  | none => exact Nat.le_refl _
  | some rest => exact Nat.le_of_lt (length_of_newline? h)

theorem length_of_string? {cs str rest : List Char} (h : string? cs = some (str, rest)) :
    rest.length < cs.length := by
  unfold string? at h
  split at h
  · next inner =>
    have htext := Nat.lt_of_lt_of_le (length_of_basicText h) (length_skipFirstNewline_le inner)
    simp only [List.length_cons]
    omega
  · exact Nat.lt_succ_of_lt (length_of_basicString h)
  · next inner =>
    have htext := Nat.lt_of_lt_of_le (length_of_literalText h) (length_skipFirstNewline_le inner)
    simp only [List.length_cons]
    omega
  · exact Nat.lt_succ_of_lt (length_of_literalString h)
  · cases h

theorem length_dropWhile_lt {p : Char → Bool} {cs : List Char} (h : cs.takeWhile p ≠ []) :
    (cs.dropWhile p).length < cs.length := by
  have happend := congrArg List.length (List.takeWhile_append_dropWhile (p := p) (l := cs))
  have hpos := List.length_pos_iff.mpr h
  rw [List.length_append] at happend
  omega

theorem length_of_keyPart? {cs rest : List Char} {part : String}
    (h : keyPart? cs = some (part, rest)) : rest.length < cs.length := by
  unfold keyPart? at h
  split at h
  · obtain ⟨⟨str, rest'⟩, hs, heq⟩ := Option.map_eq_some_iff.mp h
    cases heq
    exact Nat.lt_succ_of_lt (length_of_basicString hs)
  · obtain ⟨⟨str, rest'⟩, hs, heq⟩ := Option.map_eq_some_iff.mp h
    cases heq
    exact Nat.lt_succ_of_lt (length_of_literalString hs)
  · simp only at h
    split at h
    · cases h
    · next hne =>
      cases h
      exact length_dropWhile_lt (by simpa using hne)

theorem length_of_keyParts? {limit : Nat} {cs rest : List Char} {parts : List String}
    (h : keyParts? limit cs = some (parts, rest)) : rest.length < cs.length := by
  induction limit generalizing cs parts with
  | zero => cases h
  | succ limit ih =>
    simp only [keyParts?, Option.bind_eq_bind, Option.bind_eq_some_iff, Prod.exists] at h
    obtain ⟨part, rest', hpart, h⟩ := h
    have hfirst : rest'.length < cs.length :=
      Nat.lt_of_lt_of_le (length_of_keyPart? hpart) (length_skipSpaces_le cs)
    have hle := length_skipSpaces_le rest'
    split at h
    · next inner heq =>
      rw [heq, List.length_cons] at hle
      simp only [Option.bind_eq_some_iff, Prod.exists] at h
      obtain ⟨parts', rest'', hparts, h⟩ := h
      cases h
      have hmore := ih hparts
      omega
    · cases h
      omega

theorem length_of_key? {cs rest : List Char} {parts : List String}
    (h : key? cs = some (parts, rest)) : rest.length < cs.length :=
  length_of_keyParts? h

end VlanTrunking.Toml
