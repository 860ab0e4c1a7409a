import VlanTrunking.Toml.Value

/-! Readers before the end of a line. What a reader makes of a text it also makes of this text with
a line end and further lines behind it, which it leaves. Runs of characters stop there by
themselves, and a reader that passes over layout has to come to something else first if it
succeeds. -/
namespace VlanTrunking.Toml

/-- What stands behind a line, and the lines below it. -/
inductive LineEnd : List Char → List Char → Prop
  | last : LineEnd [] []
  | feed {below : List Char} : LineEnd ('\n' :: below) below
  | returned {below : List Char} : LineEnd ('\r' :: '\n' :: below) below

variable {cs s rest after below : List Char}

theorem takeWhile_append_stop {p : Char → Bool} (stops : ∀ c ∈ after.head?, p c = false)
    (cs : List Char) : (cs ++ after).takeWhile p = cs.takeWhile p := by
  induction cs with
  | nil => cases after <;> simp_all
  | cons c cs ih => by_cases goes_on : p c = true <;> simp [goes_on, ih]

theorem dropWhile_append_stop {p : Char → Bool} (stops : ∀ c ∈ after.head?, p c = false)
    (cs : List Char) : (cs ++ after).dropWhile p = cs.dropWhile p ++ after := by
  induction cs with
  | nil => cases after <;> simp_all
  | cons c cs ih => by_cases goes_on : p c = true <;> simp [goes_on, ih]

namespace LineEnd

theorem stops (ends : LineEnd after below) {p : Char → Bool} (feed : p '\n' = false)
    (returned : p '\r' = false) : ∀ c ∈ after.head?, p c = false := by
  cases ends with
  | last => simp
  | feed => simpa using feed
  | returned => simpa using returned

theorem takeWhile (ends : LineEnd after below) {p : Char → Bool} (feed : p '\n' = false)
    (returned : p '\r' = false) (cs : List Char) : (cs ++ after).takeWhile p = cs.takeWhile p :=
  takeWhile_append_stop (ends.stops feed returned) cs

theorem dropWhile (ends : LineEnd after below) {p : Char → Bool} (feed : p '\n' = false)
    (returned : p '\r' = false) (cs : List Char) :
    (cs ++ after).dropWhile p = cs.dropWhile p ++ after :=
  dropWhile_append_stop (ends.stops feed returned) cs

theorem begins (ends : LineEnd after below) {c : Char} (feed : c ≠ '\n') (returned : c ≠ '\r')
    (h : ∀ inner, cs ≠ c :: inner) (inner : List Char) : cs ++ after ≠ c :: inner := by
  intro same
  rcases cs with _ | ⟨d, cs⟩
  · cases ends with
    | last => cases same
    | feed => exact feed (List.cons.inj same).1.symm
    | returned => exact returned (List.cons.inj same).1.symm
  · obtain ⟨rfl, -⟩ := List.cons.inj same
    exact h cs rfl

theorem begins_twice (ends : LineEnd after below) {c : Char} (feed : c ≠ '\n')
    (returned : c ≠ '\r') (h : ∀ inner, cs ≠ c :: c :: inner) (inner : List Char) :
    cs ++ after ≠ c :: c :: inner := by
  intro same
  rcases cs with _ | ⟨d, cs⟩
  · exact ends.begins feed returned (by simp) _ same
  · obtain ⟨rfl, same⟩ := List.cons.inj same
    exact ends.begins feed returned (fun more again => h more (by rw [again])) inner same

end LineEnd

theorem skipSpaces_line (ends : LineEnd after below) (cs : List Char) :
    skipSpaces (cs ++ after) = skipSpaces cs ++ after :=
  ends.dropWhile (by decide) (by decide) cs

/-- Only a carriage return at the end of a text could be drawn into what follows. -/
theorem newline_ahead {c : Char} (inside : c = '\r' → cs ≠ []) (after : List Char) :
    (decide (c = '\r') && (cs ++ after).head? = some '\n') =
      (decide (c = '\r') && cs.head? = some '\n') := by
  cases cs with
  | nil =>
    have other : c ≠ '\r' := fun same => inside same rfl
    simp [other]
  | cons d cs => rfl

theorem Scanned.cons_append {first second : Scanned} {c : Char} {after : List Char}
    (further : ∀ {s}, first = some (s, rest) → second = some (s, rest ++ after))
    (h : first.cons c = some (s, rest)) : second.cons c = some (s, rest ++ after) := by
  obtain ⟨⟨inner, left⟩, read, same⟩ := Option.map_eq_some_iff.mp h
  cases same
  rw [further read]
  rfl

theorem Move.append {read : StringScan → List Char → Scanned} {closed here : List Char → Scanned}
    {ahead : List Char → Prop} (move : Move read closed ahead here) (alone : ahead cs)
    (followed : ahead (cs ++ after))
    (later : ∀ {scan s}, read scan cs = some (s, rest) →
      read scan (cs ++ after) = some (s, rest ++ after))
    (closing : closed (cs ++ after) = (closed cs).map fun (s, rest) => (s, rest ++ after))
    (h : here cs = some (s, rest)) : here (cs ++ after) = some (s, rest ++ after) := by
  cases move with
  | refuses same =>
    rw [same cs alone] at h
    cases h
  | passes scan same =>
    rw [same cs alone] at h
    rw [same _ followed]
    exact later h
  | gives char same =>
    rw [same cs alone] at h
    rw [same _ followed]
    exact Scanned.cons_append later h
  | closes char same =>
    rw [same cs alone, Option.or_eq_some_iff] at h
    rw [same _ followed, closing]
    rcases h with ended | ⟨not_ended, h⟩
    · rw [ended]
      rfl
    · rw [not_ended]
      exact Scanned.cons_append later h

theorem basicString_append {scan : StringScan} (h : basicString scan cs = some (s, rest))
    (after : List Char) : basicString scan (cs ++ after) = some (s, rest ++ after) := by
  induction cs generalizing scan s with
  | nil => simp [basicString] at h
  | cons c cs ih => exact (basicString_move scan c).append trivial trivial ih rfl h

theorem literalString_append (h : literalString cs = some (s, rest)) (after : List Char) :
    literalString (cs ++ after) = some (s, rest ++ after) := by
  induction cs generalizing s with
  | nil => simp [literalString] at h
  | cons c cs ih =>
    simp only [literalString, List.cons_append] at h ⊢
    split at h
    · next closed =>
      cases h
      rw [if_pos closed]
    · next inside =>
      split at h
      · next printable =>
        rw [if_neg inside, if_pos printable]
        exact Scanned.cons_append ih h
      · cases h

theorem closeMarks?_line (ends : LineEnd after below) {mark : Char} (feed : mark ≠ '\n')
    (returned : mark ≠ '\r') (cs : List Char) :
    closeMarks? mark (cs ++ after) =
      (closeMarks? mark cs).map fun (marks, rest) => (marks, rest ++ after) := by
  have run := (List.takeWhile_sublist (· = mark) (l := cs)).length_le
  unfold closeMarks?
  rw [ends.takeWhile (by simpa using feed.symm) (by simpa using returned.symm)]
  dsimp only
  split
  · rfl
  · rw [List.drop_append_of_le_length (by omega)]
    rfl

theorem basicText_return (scan : StringScan) : basicText scan ['\r'] = none := by
  rcases scan with _ | _ | (_ | _) | _ <;> rfl

theorem basicText_line {scan : StringScan} (ends : LineEnd after below)
    (h : basicText scan cs = some (s, rest)) :
    basicText scan (cs ++ after) = some (s, rest ++ after) := by
  induction cs generalizing scan s with
  | nil => simp [basicText] at h
  | cons c cs ih =>
    -- A text that is read ends with its closing marks, so no carriage return is the last of it.
    have inside : c = '\r' → cs ≠ [] := by
      rintro rfl rfl
      rw [basicText_return] at h
      cases h
    have marks := closeMarks?_line ends (show '"' ≠ '\n' by decide) (by decide) (c :: cs)
    exact (basicText_move c _ scan).append rfl (newline_ahead inside after) ih marks h

theorem literalText_line (ends : LineEnd after below) (h : literalText cs = some (s, rest)) :
    literalText (cs ++ after) = some (s, rest ++ after) := by
  induction cs generalizing s with
  | nil => simp [literalText] at h
  | cons c cs ih =>
    have inside : c = '\r' → cs ≠ [] := by
      rintro rfl rfl
      simp [literalText, isPrintable] at h
    have marks := closeMarks?_line ends (show '\'' ≠ '\n' by decide) (by decide) (c :: cs)
    exact (literalText_move c _).append rfl (newline_ahead inside after) ih marks h

/-- A line end that follows is not drawn into the layout at the end of a text. -/
def Solid (cs : List Char) : Prop := cs ≠ [] ∧ cs ≠ ['\r']

theorem newline?_append (solid : Solid cs) (after : List Char) :
    newline? (cs ++ after) = (newline? cs).map (· ++ after) := by
  rcases cs with _ | ⟨c, _ | ⟨d, cs⟩⟩
  · exact absurd rfl solid.1
  · have other : c ≠ '\r' := fun same => solid.2 (by rw [same])
    by_cases feed : c = '\n'
    · rw [feed]
      rfl
    · simp [newline?, feed, other]
  · by_cases feed : c = '\n'
    · rw [feed]
      rfl
    · by_cases both : c = '\r' ∧ d = '\n'
      · rw [both.1, both.2]
        rfl
      · unfold newline?
        split <;> split <;> simp_all

theorem skipFirstNewline_append (solid : Solid cs) (after : List Char) :
    skipFirstNewline (cs ++ after) = skipFirstNewline cs ++ after := by
  unfold skipFirstNewline
  rw [newline?_append solid]
  cases newline? cs <;> rfl

theorem string?_basic (single : ∀ inner, cs ≠ '"' :: '"' :: inner) :
    string? ('"' :: cs) = basicString .plain cs := by
  unfold string?
  split <;> simp_all

theorem string?_literal (single : ∀ inner, cs ≠ '\'' :: '\'' :: inner) :
    string? ('\'' :: cs) = literalString cs := by
  unfold string?
  split <;> simp_all

theorem string?_line (ends : LineEnd after below) (h : string? cs = some (s, rest)) :
    string? (cs ++ after) = some (s, rest ++ after) := by
  unfold string? at h
  split at h
  · next inner =>
    have solid : Solid inner := by
      constructor <;> rintro rfl
      · cases h
      · cases (basicText_return _).symm.trans h
    have further := basicText_line ends h
    rwa [← skipFirstNewline_append solid] at further
  · next inner single =>
    have alone : ∀ more, inner ≠ '"' :: '"' :: more := fun more same => single more (by rw [same])
    rw [List.cons_append, string?_basic (ends.begins_twice (by decide) (by decide) alone)]
    exact basicString_append h _
  · next inner =>
    have solid : Solid inner := by
      constructor <;> rintro rfl
      · cases h
      · cases h
    have further := literalText_line ends h
    rwa [← skipFirstNewline_append solid] at further
  · next inner single =>
    have alone : ∀ more, inner ≠ '\'' :: '\'' :: more := fun more same => single more (by rw [same])
    rw [List.cons_append, string?_literal (ends.begins_twice (by decide) (by decide) alone)]
    exact literalString_append h _
  · cases h

theorem keyPart?_line {part : String} (ends : LineEnd after below)
    (h : keyPart? cs = some (part, rest)) :
    keyPart? (cs ++ after) = some (part, rest ++ after) := by
  unfold keyPart? at h
  split at h
  · obtain ⟨⟨inner, left⟩, read, same⟩ := Option.map_eq_some_iff.mp h
    cases same
    exact Option.map_eq_some_iff.mpr ⟨_, basicString_append read _, rfl⟩
  · obtain ⟨⟨inner, left⟩, read, same⟩ := Option.map_eq_some_iff.mp h
    cases same
    exact Option.map_eq_some_iff.mpr ⟨_, literalString_append read _, rfl⟩
  · next no_quote no_apostrophe =>
    dsimp only at h
    split at h
    · cases h
    · next some_run =>
      cases h
      unfold keyPart?
      split
      · next same => exact absurd same (ends.begins (by decide) (by decide) no_quote _)
      · next same => exact absurd same (ends.begins (by decide) (by decide) no_apostrophe _)
      · rw [ends.takeWhile (by decide) (by decide), ends.dropWhile (by decide) (by decide)]
        exact if_neg some_run

theorem keyParts?_line {limit : Nat} {parts : List String} (ends : LineEnd after below)
    (h : keyParts? limit cs = some (parts, rest)) :
    keyParts? limit (cs ++ after) = some (parts, rest ++ after) := by
  induction limit generalizing cs parts with
  | zero => cases h
  | succ limit ih =>
    simp only [keyParts?, Option.bind_eq_bind, Option.bind_eq_some_iff, Prod.exists] at h ⊢
    obtain ⟨part, left, first, h⟩ := h
    rw [skipSpaces_line ends]
    refine ⟨part, _, keyPart?_line ends first, ?_⟩
    rw [skipSpaces_line ends]
    split at h
    · next inner more =>
      simp only [Option.bind_eq_some_iff, Prod.exists] at h
      obtain ⟨later, left, others, h⟩ := h
      cases h
      rw [more]
      simp [ih others]
    · next no_more =>
      cases h
      split
      · next more => exact absurd more (ends.begins (by decide) (by decide) no_more _)
      · rfl

theorem scalar?_line {v : Item} (ends : LineEnd after below) (h : scalar? cs = some (v, rest)) :
    scalar? (cs ++ after) = some (v, rest ++ after) := by
  have first : (cs ++ after).head? = cs.head? := by
    cases cs with
    | nil => cases h
    | cons c cs => rfl
  unfold scalar? at h ⊢
  rw [first]
  split at h
  · next marked =>
    obtain ⟨⟨inner, left⟩, read, same⟩ := Option.map_eq_some_iff.mp h
    cases same
    rw [if_pos marked, string?_line ends read]
    rfl
  · next plain =>
    rw [if_neg plain, ends.takeWhile (by decide) (by decide),
      ends.dropWhile (by decide) (by decide)]
    generalize cs.takeWhile isRunChar = run at h ⊢
    generalize cs.dropWhile isRunChar = left at h ⊢
    dsimp only at h ⊢
    cases left with
    | nil =>
      have whole : (ofRun? run).map (·, []) = some (v, rest) := by simpa using h
      obtain ⟨v', read, same⟩ := Option.map_eq_some_iff.mp whole
      cases same
      cases ends with
      | last => simp [read]
      | feed => simp [read]
      | returned => simp [read]
    | cons c left =>
      have ahead : decide ((c :: left ++ after).head? = some ' ') =
          decide ((c :: left).head? = some ' ') := rfl
      rw [ahead, List.cons_append, List.tail_cons, ends.takeWhile (by decide) (by decide),
        ends.dropWhile (by decide) (by decide)]
      rw [List.tail_cons] at h
      split at h
      · next dated =>
        rw [if_pos dated]
        split at h
        · next zoned =>
          cases h
          rw [if_pos zoned]
        · cases h
      · next undated =>
        obtain ⟨v', read, same⟩ := Option.map_eq_some_iff.mp h
        cases same
        rw [if_neg undated, read]
        rfl

theorem skipLayout_append {inComment : Bool} (solid : Solid (skipLayout inComment cs))
    (after : List Char) :
    skipLayout inComment (cs ++ after) = skipLayout inComment cs ++ after := by
  induction cs generalizing inComment with
  | nil => exact absurd rfl solid.1
  | cons c cs ih =>
    have inside : c = '\r' → cs ≠ [] := by
      rintro rfl rfl
      cases inComment <;> exact solid.2 rfl
    simp only [skipLayout, List.cons_append, newline_ahead inside after] at solid ⊢
    split at solid
    · next ended =>
      rw [if_pos ended, if_pos ended]
      exact ih solid
    · next same_line =>
      rw [if_neg same_line, if_neg same_line]
      split at solid
      · next comment =>
        rw [if_pos comment, if_pos comment]
        split at solid
        · next printable =>
          rw [if_pos printable, if_pos printable]
          exact ih solid
        · next other =>
          rw [if_neg other, if_neg other]
          rfl
      · next outside =>
        rw [if_neg outside, if_neg outside]
        split at solid
        · next space =>
          rw [if_pos space, if_pos space]
          exact ih solid
        · next solid_char =>
          rw [if_neg solid_char, if_neg solid_char]
          split at solid
          · next opens =>
            rw [if_pos opens, if_pos opens]
            exact ih solid
          · next other =>
            rw [if_neg other, if_neg other]
            rfl

namespace Progress

variable {p p' : Progress} {stack : List Frame} {v : Item}

theorem awaitKey_line {before : Table} (ends : LineEnd after below)
    (h : awaitKey stack before cs = some (p, rest)) :
    awaitKey stack before (cs ++ after) = some (p, rest ++ after) := by
  simp only [awaitKey, Option.bind_eq_bind, Option.bind_eq_some_iff, Prod.exists] at h ⊢
  obtain ⟨key, left, read, h⟩ := h
  refine ⟨key, _, keyParts?_line ends read, ?_⟩
  split at h
  · next inner =>
    cases h
    simp only [List.cons_append, skipSpaces_line ends]
    rfl
  · cases h

theorem begin_line (ends : LineEnd after below) (h : begin stack cs = some (p, rest))
    (solid : p.complete = none → Solid rest) :
    begin stack (cs ++ after) = some (p, rest ++ after) := by
  unfold begin at h
  split at h
  · next inner =>
    split at h
    · cases h
    · next room =>
      rw [List.cons_append, begin, if_neg room]
      split at h
      · next closed =>
        cases h
        rw [skipLayout_append (by simp [Solid, closed]), closed]
        rfl
      · next other =>
        cases h
        rw [skipLayout_append (solid rfl)]
        split
        · next closed => exact absurd closed (ends.begins (by decide) (by decide) other _)
        · rfl
  · next inner =>
    split at h
    · cases h
    · next room =>
      rw [List.cons_append, begin, if_neg room, skipSpaces_line ends]
      split at h
      · next closed =>
        cases h
        rw [closed]
        rfl
      · next other =>
        split
        · next closed => exact absurd closed (ends.begins (by decide) (by decide) other _)
        · exact awaitKey_line ends h
  · next no_bracket no_brace =>
    obtain ⟨⟨v, left⟩, read, same⟩ := Option.map_eq_some_iff.mp h
    cases same
    have plain := ends.begins (show '[' ≠ '\n' by decide) (by decide) no_bracket
    have plain' := ends.begins (show '{' ≠ '\n' by decide) (by decide) no_brace
    unfold begin
    split
    · next same => exact absurd same (plain _)
    · next same => exact absurd same (plain' _)
    · rw [scalar?_line ends read]
      rfl

theorem proceed_line (ends : LineEnd after below) (h : proceed v cs stack = some (p, rest))
    (solid : p.complete = none → Solid rest) :
    proceed v (cs ++ after) stack = some (p, rest ++ after) := by
  unfold proceed at h
  split at h
  · cases h
  · next before stack =>
    split at h
    · next inner closed =>
      cases h
      rw [proceed, skipLayout_append (by simp [Solid, closed]), closed]
      rfl
    · next inner more =>
      rw [proceed, skipLayout_append (by simp [Solid, more]), more, List.cons_append]
      simp only
      split at h
      · next closed =>
        cases h
        rw [skipLayout_append (by simp [Solid, closed]), closed]
        rfl
      · next other =>
        cases h
        rw [skipLayout_append (solid rfl)]
        split
        · next closed => exact absurd closed (ends.begins (by decide) (by decide) other _)
        · rfl
    · cases h
  · next before key stack =>
    simp only [Option.bind_eq_bind, Option.bind_eq_some_iff] at h
    obtain ⟨t, assigned, h⟩ := h
    split at h
    · next inner closed =>
      cases h
      simp [proceed, skipSpaces_line ends, assigned, closed]
    · next inner more =>
      have further := awaitKey_line ends h
      simp [proceed, skipSpaces_line ends, assigned, more, further]
    · cases h

theorem step_line (ends : LineEnd after below) (h : p.step cs = some (p', rest))
    (solid : p'.complete = none → Solid rest) :
    p.step (cs ++ after) = some (p', rest ++ after) := by
  unfold step at h ⊢
  split at h
  · exact begin_line ends h solid
  · exact proceed_line ends h solid

theorem solid_of_begin (h : begin stack cs = some (p, rest)) : Solid cs := by
  constructor <;> rintro rfl
  · cases h
  · cases h

theorem run_of_step (h : p.step cs = some (p', rest))
    (not_over : ∀ v, p.stack = [] → p.complete = some v → False) : p.run cs = p'.run rest := by
  rw [run.eq_def]
  split
  · next v no_stack complete => exact absurd complete (not_over v no_stack)
  · split
    · next failed =>
      rw [h] at failed
      cases failed
    · next read =>
      rw [h] at read
      cases read
      rfl

theorem solid_of_run (waiting : p.complete = none) (h : p.run cs = some (v, rest)) : Solid cs := by
  rw [run.eq_def] at h
  split at h
  · next complete =>
    rw [waiting] at complete
    cases complete
  · split at h
    · cases h
    · next read =>
      rw [step, waiting] at read
      exact solid_of_begin read

theorem run_line (ends : LineEnd after below) (h : p.run cs = some (v, rest)) :
    p.run (cs ++ after) = some (v, rest ++ after) := by
  fun_induction run p cs with
  | case1 p cs v' complete no_stack =>
    cases h
    unfold run
    simp [no_stack, complete]
  | case2 => cases h
  | case3 p cs p' left step not_over ih =>
    -- A step that leaves the value open cannot have come to the end: the next one would fail there.
    have solid : p'.complete = none → Solid left := fun waiting => solid_of_run waiting h
    rw [run_of_step (step_line ends step solid) not_over]
    exact ih h

end Progress

theorem value?_line {v : Item} (ends : LineEnd after below) (h : value? cs = some (v, rest)) :
    value? (cs ++ after) = some (v, rest ++ after) :=
  Progress.run_line ends h

end VlanTrunking.Toml
