import VlanTrunking.Proofs.Reading

/-! Configuration commands written out as lines. The words of a command are its keywords, in any
letter case, and its arguments as they are; a line has these words with blanks between them. Such a
line is read as the command it was written for, so what the reader makes of lines are the
well-formed commands and no others. -/
namespace VlanTrunking

namespace Text

inductive LaidOut : List String → String → Prop
  | single (w : String) : LaidOut [w] w
  | cons (w : String) {gap : String} {ws : List String} {rest : String} :
      gap.toList.all isBlank = true → gap ≠ "" → LaidOut ws rest →
      LaidOut (w :: ws) (w ++ gap ++ rest)
  | indented {gap : String} {ws : List String} {line : String} :
      gap.toList.all isBlank = true → LaidOut ws line → LaidOut ws (gap ++ line)
  | padded {gap : String} {ws : List String} {line : String} :
      gap.toList.all isBlank = true → LaidOut ws line → LaidOut ws (line ++ gap)

theorem isWord_iff_solid {w : String} : IsWord w ↔ Solid w.toList := by
  constructor
  · intro word
    exact ⟨by simpa using word.nonempty, word.solid⟩
  · intro solid
    exact ⟨by simpa using solid.1, solid.2⟩

instance (w : String) : Decidable (IsWord w) := decidable_of_iff _ isWord_iff_solid.symm

theorem words_of_laidOut {ws : List String} {line : String} (laid : LaidOut ws line)
    (word : ∀ w ∈ ws, IsWord w) : words line = ws := by
  induction laid with
  | single w =>
    have solid : Solid w.toList := isWord_iff_solid.mp (word w (by simp))
    simp [words, wordsOf_solid solid]
  | cons w blank some_left _ ih =>
    rw [List.forall_mem_cons] at word
    rw [words_append_gap (isWord_iff_solid.mp word.1) blank some_left, ih word.2]
  | indented blank _ ih =>
    have blanks := List.all_eq_true.mp blank
    rw [words, String.toList_append, wordsOf_blanks_append blanks, ← words, ih word]
  | padded blank _ ih =>
    have blanks := List.all_eq_true.mp blank
    rw [words, String.toList_append, wordsOf_append_blanks blanks, ← words, ih word]

theorem laidOut_unwords {ws : List String} (some_left : ws ≠ []) : LaidOut ws (unwords ws) := by
  induction ws with
  | nil => exact absurd rfl some_left
  | cons w ws ih =>
    cases ws with
    | nil =>
      have alone : unwords [w] = w := by simp [unwords]
      rw [alone]
      exact .single w
    | cons v ws =>
      rw [unwords_cons (by simp)]
      exact .cons w (by decide) (by decide) (ih (by simp))

theorem words_unwords {ws : List String} (some_left : ws ≠ []) (word : ∀ w ∈ ws, IsWord w) :
    words (unwords ws) = ws :=
  words_of_laidOut (laidOut_unwords some_left) word

theorem IsPhrase.words {s : String} (phrase : IsPhrase s) :
    words s ≠ [] ∧ unwords (words s) = s := by
  obtain ⟨ws, some_left, word, rfl⟩ := phrase
  rw [words_unwords some_left word]
  exact ⟨some_left, rfl⟩

theorem isWord_of_lower {w : String} (word : IsWord (lower w)) : IsWord w where
  nonempty := by
    rintro rfl
    exact word.nonempty rfl
  solid := by
    intro c listed
    have lowered : c.toLower ∈ (lower w).toList := by simpa [lower] using ⟨c, listed, rfl⟩
    rw [← isBlank_toLower]
    exact word.solid _ lowered

end Text

namespace IdList

variable {ids : List VlanId}

theorem mem_write {c : Char} (h : c ∈ (write ids).toList) : c.isDigit = true ∨ c = ',' := by
  induction ids with
  | nil => simp [write] at h
  | cons id ids ih =>
    cases ids with
    | nil =>
      have digits : (write [id]).toList = Nat.toDigits 10 id := by simp [write]
      rw [digits] at h
      exact .inl (Text.isDigit_toDigits id c h)
    | cons next ids =>
      have parts : write (id :: next :: ids) = id.repr ++ "," ++ write (next :: ids) :=
        String.intercalate_cons_of_ne_nil (by simp)
      simp only [parts, String.toList_append, List.mem_append] at h
      rcases h with (digit | comma) | later
      · exact .inl (Text.isDigit_toDigits id c (by simpa using digit))
      · exact .inr (by simpa using comma)
      · exact ih later

theorem read_write (canonical : Canonical ids) : read (write ids) = .ok ids := by
  rw [read, read?_write canonical]

theorem canonical_singleton {id : VlanId} (assignable : id.Assignable) : Canonical [id] where
  nonempty := by simp
  ascending := List.pairwise_singleton _ id
  assignable := by simpa using assignable

theorem isWord_write (canonical : Canonical ids) : Text.IsWord (write ids) where
  nonempty := by
    intro none_left
    have unread : read? "" = none := by decide
    have read := read?_write canonical
    rw [none_left, unread] at read
    cases read
  solid := by
    intro c listed
    rcases mem_write listed with digit | rfl
    · exact Text.isBlank_of_isDigit digit
    · decide

theorem lower_write : Text.lower (write ids) = write ids := by
  have kept : ∀ c ∈ (write ids).toList, c.toLower = c := by
    intro c listed
    rcases mem_write listed with digit | rfl
    · have not_upper : ¬ ('A'.val ≤ c.val ∧ c.val ≤ 'Z'.val) := by
        rintro ⟨low, -⟩
        rw [Char.isDigit, Bool.and_eq_true, decide_eq_true_eq, decide_eq_true_eq] at digit
        exact absurd (UInt32.le_trans low digit.2) (by decide)
      exact dif_neg not_upper
    · decide
  have same : (write ids).toList.map Char.toLower = (write ids).toList := by
    simpa using List.map_congr_left (g := id) kept
  rw [Text.lower, same, String.ofList_toList]

theorem write_ne {s : String} {c : Char} (listed : c ∈ s.toList)
    (other : ¬ (c.isDigit = true ∨ c = ',')) : write ids ≠ s := by
  rintro rfl
  exact other (mem_write listed)

end IdList

/-- A piece of a written command: a keyword, in any letter case, or an argument to the letter. -/
inductive Piece where
  | keyword (text : String)
  | argument (text : String)
  deriving DecidableEq, Repr

namespace Piece

def text : Piece → String
  | keyword text | argument text => text

def SpeltAs : Piece → String → Prop
  | keyword text, word => Text.lower word = text
  | argument text, word => text = word

theorem speltAs_arguments {args ws : List String} :
    List.Forall₂ SpeltAs (args.map argument) ws ↔ args = ws := by
  rw [List.forall₂_map_left_iff]
  change List.Forall₂ (· = ·) args ws ↔ _
  rw [List.forall₂_eq_eq_eq]

def Proper : Piece → Prop
  | keyword text => Text.IsWord text ∧ Text.lower text = text
  | argument text => Text.IsWord text

instance : DecidablePred Proper
  | keyword text => inferInstanceAs (Decidable (Text.IsWord text ∧ Text.lower text = text))
  | argument text => inferInstanceAs (Decidable (Text.IsWord text))

theorem Proper.speltAs_text {piece : Piece} (proper : piece.Proper) : piece.SpeltAs piece.text := by
  cases piece with
  | keyword text => exact proper.2
  | argument text => rfl

theorem Proper.isWord {piece : Piece} {word : String} (proper : piece.Proper)
    (spelt : piece.SpeltAs word) : Text.IsWord word := by
  cases piece with
  | keyword text =>
    obtain rfl : Text.lower word = text := spelt
    exact Text.isWord_of_lower proper.1
  | argument text =>
    obtain rfl : text = word := spelt
    exact proper

theorem isWord_of_spelt {pieces : List Piece} {ws : List String}
    (proper : ∀ piece ∈ pieces, piece.Proper) (spelt : List.Forall₂ SpeltAs pieces ws) :
    ∀ w ∈ ws, Text.IsWord w := by
  induction spelt with
  | nil => simp
  | cons first _ ih =>
    rw [List.forall_mem_cons] at proper ⊢
    exact ⟨proper.1.isWord first, ih proper.2⟩

end Piece

namespace ConfigCommand

open Piece in
def pieces : ConfigCommand → List Piece
  | setMode mode => [keyword "vtp", keyword "mode", keyword mode.name]
  | setDomain name => [keyword "vtp", keyword "domain", argument name]
  | setPassword password =>
    keyword "vtp" :: keyword "password" :: (Text.words password).map argument
  | enablePruning => [keyword "vtp", keyword "pruning"]
  | disablePruning => [keyword "no", keyword "vtp", keyword "pruning"]
  | defineVlans ids none => [keyword "vlan", argument (IdList.write ids)]
  | defineVlans ids (some name) =>
    keyword "vlan" :: argument (IdList.write ids) :: keyword "name" ::
      (Text.words name).map argument
  | removeVlans ids => [keyword "no", keyword "vlan", argument (IdList.write ids)]
  | setPrivateVlan id kind =>
    [keyword "private-vlan", keyword kind.name, argument (IdList.write [id])]

/-- The lines on which a command is written. -/
def WrittenAs (c : ConfigCommand) (line : String) : Prop :=
  ∃ ws, List.Forall₂ Piece.SpeltAs c.pieces ws ∧ Text.LaidOut ws line

def line (c : ConfigCommand) : String := Text.unwords (c.pieces.map Piece.text)

section Words

variable {ws args : List String} {ids : List VlanId} {first second : String}

theorem ofNoVlanWords_write (canonical : IdList.Canonical ids) :
    ofNoVlanWords [IdList.write ids] = .ok (removeVlans ids) := by
  simp [ofNoVlanWords, IdList.read_write canonical]

theorem lower_write_ne_tag : Text.lower (IdList.write ids) ≠ "dot1q" := by
  rw [IdList.lower_write]
  exact IdList.write_ne (c := 'd') (by decide) (by decide)

theorem isNameKeyword_write : isNameKeyword (IdList.write ids) = false := by
  have other : IdList.write ids ≠ "name" := IdList.write_ne (c := 'n') (by decide) (by decide)
  simpa [isNameKeyword, IdList.lower_write] using other

theorem ofVlanWords_write (canonical : IdList.Canonical ids) :
    ofVlanWords [IdList.write ids] = .ok (defineVlans ids none) := by
  simp [ofVlanWords, lower_write_ne_tag, isNameKeyword_write, IdList.read_write canonical]

theorem ofVlanWords_write_name (canonical : IdList.Canonical ids)
    (keyword : Text.lower first = "name") (some_left : args ≠ []) :
    ofVlanWords (IdList.write ids :: first :: args) =
      .ok (defineVlans ids (some (Text.unwords args))) := by
  have named : isNameKeyword first = true := by simp [isNameKeyword, keyword]
  simp [ofVlanWords, lower_write_ne_tag, isNameKeyword_write, named, some_left,
    IdList.read_write canonical]

theorem ofPrivateVlanWords_write {id : VlanId} {kind : VlanKind} (assignable : id.Assignable)
    (private_role : kind ≠ .normal) (role : Text.lower first = kind.name) :
    ofPrivateVlanWords [first, IdList.write [id]] = .ok (setPrivateVlan id kind) := by
  have read : IdList.read (String.join [IdList.write [id]]) = .ok [id] := by
    simp [IdList.read_write (IdList.canonical_singleton assignable)]
  exact ofPrivateVlanWords_of_one private_role role (by simp) read

theorem ofWords_of_spelt {c : ConfigCommand} (wellFormed : c.WellFormed)
    (spelt : List.Forall₂ Piece.SpeltAs c.pieces ws) : ofWords ws = .ok c := by
  cases c with
  | setMode mode =>
    obtain _ | ⟨vtp, _ | ⟨sub, _ | ⟨name, _ | _⟩⟩⟩ := spelt
    rw [ofWords_vtp vtp, ofVtpWords_mode sub name]
  | setDomain name =>
    obtain _ | ⟨vtp, _ | ⟨sub, _ | ⟨rfl, _ | _⟩⟩⟩ := spelt
    rw [ofWords_vtp vtp, ofVtpWords_domain sub]
  | setPassword password =>
    obtain ⟨some_left, joined⟩ := Text.IsPhrase.words wellFormed
    obtain _ | ⟨vtp, _ | ⟨sub, args⟩⟩ := spelt
    obtain rfl := Piece.speltAs_arguments.mp args
    rw [ofWords_vtp vtp, ofVtpWords_password sub some_left, joined]
  | enablePruning =>
    obtain _ | ⟨vtp, _ | ⟨sub, _ | _⟩⟩ := spelt
    rw [ofWords_vtp vtp, ofVtpWords_pruning sub]
  | disablePruning =>
    obtain _ | ⟨no, _ | ⟨vtp, _ | ⟨sub, _ | _⟩⟩⟩ := spelt
    rw [ofWords_noPruning no vtp sub]
  | defineVlans ids name =>
    obtain ⟨canonical, phrase⟩ := wellFormed
    cases name with
    | none =>
      obtain _ | ⟨vlan, _ | ⟨rfl, _ | _⟩⟩ := spelt
      rw [ofWords_vlan vlan, ofVlanWords_write canonical]
    | some name =>
      obtain ⟨some_left, joined⟩ := Text.IsPhrase.words (phrase name rfl)
      obtain _ | ⟨vlan, _ | ⟨rfl, _ | ⟨keyword, args⟩⟩⟩ := spelt
      obtain rfl := Piece.speltAs_arguments.mp args
      rw [ofWords_vlan vlan, ofVlanWords_write_name canonical keyword some_left, joined]
  | removeVlans ids =>
    obtain _ | ⟨no, _ | ⟨vlan, _ | ⟨rfl, _ | _⟩⟩⟩ := spelt
    rw [ofWords_noVlan no vlan, ofNoVlanWords_write wellFormed]
  | setPrivateVlan id kind =>
    obtain _ | ⟨keyword, _ | ⟨role, _ | ⟨rfl, _ | _⟩⟩⟩ := spelt
    rw [ofWords_privateVlan keyword, ofPrivateVlanWords_write wellFormed.1 wellFormed.2 role]

end Words

theorem proper_pieces {c : ConfigCommand} (wellFormed : c.WellFormed) :
    ∀ piece ∈ c.pieces, piece.Proper := by
  have vtp : (Piece.keyword "vtp").Proper := by decide
  have vlan : (Piece.keyword "vlan").Proper := by decide
  have no : (Piece.keyword "no").Proper := by decide
  have words : ∀ s, ∀ piece ∈ (Text.words s).map Piece.argument, piece.Proper := by
    intro s
    rw [List.forall_mem_map]
    exact fun w listed => Text.isWord_of_mem_words listed
  have list : ∀ {ids}, IdList.Canonical ids → (Piece.argument (IdList.write ids)).Proper :=
    IdList.isWord_write
  cases c with
  | setMode mode => cases mode <;> decide
  | setDomain name =>
    have sub : (Piece.keyword "domain").Proper := by decide
    have name_word : (Piece.argument name).Proper := wellFormed
    simp [pieces, vtp, sub, name_word]
  | setPassword password =>
    have sub : (Piece.keyword "password").Proper := by decide
    simpa only [pieces, List.forall_mem_cons] using ⟨vtp, sub, words password⟩
  | enablePruning | disablePruning => decide
  | defineVlans ids name =>
    have ids_word := list wellFormed.1
    cases name with
    | none => simp [pieces, vlan, ids_word]
    | some name =>
      have sub : (Piece.keyword "name").Proper := by decide
      simpa only [pieces, List.forall_mem_cons] using ⟨vlan, ids_word, sub, words name⟩
  | removeVlans ids => simp [pieces, no, vlan, list wellFormed]
  | setPrivateVlan id kind =>
    have first : (Piece.keyword "private-vlan").Proper := by decide
    have role : (Piece.keyword kind.name).Proper := by cases kind <;> decide
    have id_word := list (IdList.canonical_singleton wellFormed.1)
    simp [pieces, first, role, id_word]

theorem read_of_writtenAs {c : ConfigCommand} (wellFormed : c.WellFormed) {line : String}
    (written : c.WrittenAs line) : read line = .ok c := by
  obtain ⟨ws, spelt, laid⟩ := written
  have word : ∀ w ∈ ws, Text.IsWord w := Piece.isWord_of_spelt (proper_pieces wellFormed) spelt
  rw [read, Text.words_of_laidOut laid word, ofWords_of_spelt wellFormed spelt]

theorem writtenAs_line {c : ConfigCommand} (wellFormed : c.WellFormed) : c.WrittenAs c.line := by
  have some_left : c.pieces.map Piece.text ≠ [] := by
    fun_cases pieces <;> simp
  refine ⟨c.pieces.map Piece.text, ?_, Text.laidOut_unwords some_left⟩
  rw [List.forall₂_map_right_iff, List.forall₂_same]
  exact fun piece listed => (proper_pieces wellFormed piece listed).speltAs_text

end ConfigCommand

/-- What the reader makes of all lines are the well-formed commands, and a well-formed command is
what it makes of every line on which that command is written. -/
theorem config_reader_image (c : ConfigCommand) :
    ((∃ line, ConfigCommand.read line = .ok c) ↔ c.WellFormed) ∧
      (c.WellFormed → ∀ line, c.WrittenAs line → ConfigCommand.read line = .ok c) := by
  refine ⟨⟨?_, ?_⟩, ?_⟩
  · rintro ⟨line, read⟩
    exact ConfigCommand.wellFormed_of_read read
  · intro wellFormed
    have written : c.WrittenAs c.line := ConfigCommand.writtenAs_line wellFormed
    exact ⟨c.line, ConfigCommand.read_of_writtenAs wellFormed written⟩
  · intro wellFormed line written
    exact ConfigCommand.read_of_writtenAs wellFormed written

theorem config_reader_image_password :
    let c := ConfigCommand.setPassword "Pruning name"
    let line := "VTP\u2003passWord  Pruning \tname\n"
    c.WellFormed ∧ c.WrittenAs line ∧ ConfigCommand.read line = .ok c ∧
      ¬ ∃ line, ConfigCommand.read line = .ok (.setDomain "two words") := by
  intro c line
  have wellFormed : c.WellFormed := ⟨["Pruning", "name"], by decide, by decide, by decide⟩
  have spelt : List.Forall₂ Piece.SpeltAs c.pieces ["VTP", "passWord", "Pruning", "name"] := by
    have args : Text.words "Pruning name" = ["Pruning", "name"] := by decide
    have vtp : Text.lower "VTP" = "vtp" := by decide
    have sub : Text.lower "passWord" = "password" := by decide
    exact .cons vtp (.cons sub (Piece.speltAs_arguments.mpr args))
  have laid : Text.LaidOut ["VTP", "passWord", "Pruning", "name"] line := by
    have whole : line =
        "VTP" ++ "\u2003" ++ ("passWord" ++ "  " ++ ("Pruning" ++ " \t" ++ ("name" ++ "\n"))) := by
      decide
    rw [whole]
    exact .cons _ (by decide) (by decide) <| .cons _ (by decide) (by decide) <|
      .cons _ (by decide) (by decide) <| .padded (by decide) (.single "name")
  have written : c.WrittenAs line := ⟨_, spelt, laid⟩
  obtain ⟨-, reads⟩ := config_reader_image c
  obtain ⟨image, -⟩ := config_reader_image (.setDomain "two words")
  have not_word : ¬ Text.IsWord "two words" := by decide
  exact ⟨wellFormed, written, reads wellFormed line written, not_word ∘ image.mp⟩

end VlanTrunking
