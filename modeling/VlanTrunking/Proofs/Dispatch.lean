import VlanTrunking.Proofs.Routing
import VlanTrunking.Proofs.Words

/-! Dispatch and reading compared. Dispatch looks at how the text of a line begins, and the readers
look at its words. On a line whose words stand one space apart the two see the same thing, so a line
that a reader accepts goes to the handler of that reader. On any other line dispatch may take a word
for a keyword that the word only begins with, and this happens for two keywords alone. -/
namespace VlanTrunking

namespace Text

/-- The words of a line are one space apart; blanks at its ends do not count. -/
def SingleSpaced (line : String) : Prop := trim line = unwords (words line)

instance (line : String) : Decidable (SingleSpaced line) := inferInstanceAs (Decidable (_ = _))

def Outgrows (word keyword : String) : Prop := ∃ tail, tail ≠ "" ∧ word = keyword ++ tail

theorem Outgrows.ne {word keyword other : String} (outgrows : Outgrows word keyword)
    (short : other.length ≤ keyword.length) : word ≠ other := by
  obtain ⟨tail, some_left, rfl⟩ := outgrows
  rintro rfl
  rw [String.length_append] at short
  have none_left : tail.length = 0 := by omega
  exact some_left (String.length_eq_zero_iff.mp none_left)

theorem eq_or_outgrows (keyword tail : String) :
    keyword ++ tail = keyword ∨ Outgrows (keyword ++ tail) keyword := by
  by_cases none_left : tail = ""
  · exact .inl (by rw [none_left, String.append_empty])
  · exact .inr ⟨tail, none_left, rfl⟩

theorem isPrefixOf_iff {start s : String} :
    start.toList.isPrefixOf s.toList = true ↔ ∃ rest, s = start ++ rest := by
  rw [List.isPrefixOf_iff_prefix]
  constructor
  · rintro ⟨rest, parts⟩
    exact ⟨String.ofList rest, String.toList_inj.mp (by simp [← parts])⟩
  · rintro ⟨rest, rfl⟩
    simp

theorem unwords_prefix {start ws : List String} (begins : start <+: ws) :
    ∃ rest, unwords ws = unwords start ++ rest := by
  obtain ⟨after, rfl⟩ := begins
  by_cases none_before : start = []
  · exact ⟨unwords after, by simp [none_before, unwords]⟩
  · by_cases none_after : after = []
    · exact ⟨"", by simp [none_after]⟩
    · refine ⟨" " ++ unwords after, ?_⟩
      rw [unwords, String.intercalate_append_of_ne_nil none_before none_after, String.append_assoc,
        unwords, unwords]

end Text

namespace ConfigCommand

/-- The beginnings of lines that are for the configuration reader. -/
def openings : List (List String) :=
  [["vtp"], ["vlan"], ["private-vlan"], ["no", "vlan"], ["no", "vtp", "pruning"]]

def Claimed (keywords : List String) : Prop := ∃ opening ∈ openings, opening <+: keywords

/-- Words, in lower case, that dispatch takes for keywords they only begin with. -/
inductive Mistaken : List String → Prop
  | privateVlan {word : String} (rest : List String) :
      Text.Outgrows word "private-vlan" → Mistaken (word :: rest)
  | noPruning {word : String} (rest : List String) :
      Text.Outgrows word "pruning" → Mistaken ("no" :: "vtp" :: word :: rest)

section Refusals

variable {ws : List String}

theorem mode_read_ne_notVtp {token : String} : Mode.read token ≠ .error .notVtpCommand := by
  rw [Mode.read]
  split <;> simp

theorem list_read_ne_notVtp {text : String} : IdList.read text ≠ .error .notVtpCommand := by
  rw [IdList.read]
  split <;> simp

theorem ofVtpWords_ne_notVtp : ofVtpWords ws ≠ .error .notVtpCommand := by
  unfold ofVtpWords
  split
  · simp
  · split <;> simp [refused_map, mode_read_ne_notVtp]

theorem ofVlanWords_ne_notVtp : ofVlanWords ws ≠ .error .notVtpCommand := by
  unfold ofVlanWords
  split
  · simp
  · dsimp only
    split
    · simp
    · split
      · simp [refused_bind, list_read_ne_notVtp, pure, Except.pure]
      · split
        · simp
        · simp [refused_bind, list_read_ne_notVtp, pure, Except.pure]

theorem ofNoVlanWords_ne_notVtp : ofNoVlanWords ws ≠ .error .notVtpCommand := by
  unfold ofNoVlanWords
  split
  · simp
  · simp [refused_map, list_read_ne_notVtp]

theorem ofPrivateVlanWords_ne_notVtp : ofPrivateVlanWords ws ≠ .error .notVtpCommand := by
  unfold ofPrivateVlanWords
  split
  · simp
  · split
    · simp
    · split
      · simp
      · dsimp only
        split <;> simp

end Refusals

theorem claimed_cons {word : String} {rest : List String} :
    Claimed (word :: rest) ↔ word = "vtp" ∨ word = "vlan" ∨ word = "private-vlan" ∨
      word = "no" ∧ (["vlan"] <+: rest ∨ ["vtp", "pruning"] <+: rest) := by
  simp only [Claimed, openings, List.exists_mem_cons_iff, List.cons_prefix_cons, List.nil_prefix,
    and_true, List.not_mem_nil, false_and, exists_false, or_false, and_or_left]
  simp only [eq_comm]

/-- A line is turned down as a whole exactly if it begins with no keyword of the reader; past the
keyword something else is said to be wrong. -/
theorem ofWords_notVtp_iff {ws : List String} :
    ofWords ws = .error .notVtpCommand ↔ ¬ Claimed (ws.map Text.lower) := by
  cases ws with
  | nil => simp [ofWords, Claimed, openings]
  | cons first args =>
    rw [ofWords, List.map_cons, claimed_cons]
    split
    · next keyword => simp [keyword, ofVtpWords_ne_notVtp]
    · next keyword => simp [keyword, ofVlanWords_ne_notVtp]
    · next keyword => simp [keyword, ofPrivateVlanWords_ne_notVtp]
    · next keyword =>
      split
      · next keywords => simp [keyword, keywords, ofNoVlanWords_ne_notVtp]
      · next keywords => simp [keyword, keywords]
      · next not_vlan not_pruning =>
        generalize args.map Text.lower = keywords at not_vlan not_pruning
        have vlan : ¬ ["vlan"] <+: keywords := by
          rintro ⟨rest, h⟩
          exact not_vlan rest h.symm
        have pruning : ¬ ["vtp", "pruning"] <+: keywords := by
          rintro ⟨rest, h⟩
          exact not_pruning rest h.symm
        simp [keyword, vlan, pruning]
    · next not_vtp not_vlan not_private not_no =>
      simpa using ⟨not_vtp, not_vlan, not_private, fun no => absurd no not_no⟩

section Openings

variable {keywords : List String}

theorem not_claimed_of_mistaken (mistaken : Mistaken keywords) : ¬ Claimed keywords := by
  cases mistaken with
  | privateVlan rest outgrows =>
    rw [claimed_cons]
    rintro (vtp | vlan | whole | ⟨no, _⟩)
    · exact outgrows.ne (by decide) vtp
    · exact outgrows.ne (by decide) vlan
    · exact outgrows.ne (by decide) whole
    · exact outgrows.ne (by decide) no
  | noPruning rest outgrows =>
    have longer := outgrows.ne (Nat.le_refl _)
    simp [claimed_cons, longer.symm]

theorem claimed_or_mistaken {s : String} (h : LineFamily.startsConfig s = true) :
    Claimed (Text.words s) ∨ Mistaken (Text.words s) := by
  have vtp : Text.Solid "vtp".toList := by decide
  have vlan : Text.Solid "vlan".toList := by decide
  have no : Text.Solid "no".toList := by decide
  simp only [LineFamily.startsConfig, Bool.or_eq_true, Text.isPrefixOf_iff, decide_eq_true_eq] at h
  rcases h with ((((⟨rest, rfl⟩ | rfl) | ⟨rest, rfl⟩) | ⟨rest, rfl⟩) | ⟨rest, rfl⟩) | ⟨rest, rfl⟩
  · have parts : "vtp " = "vtp" ++ " " := by decide
    rw [parts, Text.words_append_space vtp]
    simp [claimed_cons]
  · have whole : Text.words "vtp pruning" = ["vtp", "pruning"] := by decide
    simp [whole, claimed_cons]
  · have parts : "no vtp pruning" = "no" ++ " " ++ ("vtp" ++ " " ++ "pruning") := by decide
    obtain ⟨tail, after, last⟩ := Text.words_append (w := "pruning") (by decide) rest
    rw [parts, String.append_assoc, Text.words_append_space no, String.append_assoc,
      Text.words_append_space vtp, last]
    rcases Text.eq_or_outgrows "pruning" tail with whole | outgrows
    · simp [claimed_cons, whole]
    · exact .inr (.noPruning after outgrows)
  · have parts : "vlan " = "vlan" ++ " " := by decide
    rw [parts, Text.words_append_space vlan]
    simp [claimed_cons]
  · have parts : "no vlan " = "no" ++ " " ++ ("vlan" ++ " ") := by decide
    rw [parts, String.append_assoc, Text.words_append_space no, Text.words_append_space vlan]
    simp [claimed_cons]
  · obtain ⟨tail, after, first⟩ := Text.words_append (w := "private-vlan") (by decide) rest
    rw [first]
    rcases Text.eq_or_outgrows "private-vlan" tail with whole | outgrows
    · simp [claimed_cons, whole]
    · exact .inr (.privateVlan after outgrows)

theorem claimed_of_accepted {ws : List String} {c : ConfigCommand} (h : ofWords ws = .ok c) :
    Claimed (ws.map Text.lower) := by
  by_contra unclaimed
  rw [ofWords_notVtp_iff.mpr unclaimed] at h
  cases h

theorem longer_of_accepted {ws : List String} {c : ConfigCommand} (h : ofWords ws = .ok c) :
    ws.map Text.lower ≠ ["vtp"] ∧ ws.map Text.lower ≠ ["vlan"] ∧
      ws.map Text.lower ≠ ["no", "vlan"] := by
  refine ⟨?vtp, ?vlan, ?noVlan⟩
  case vtp | vlan =>
    intro short
    obtain ⟨first, args, rfl, keyword, none_left⟩ := List.map_eq_cons_iff.mp short
    rw [List.map_eq_nil_iff.mp none_left, ofWords, keyword] at h
    cases h
  case noVlan =>
    intro short
    obtain ⟨first, args, rfl, no, second⟩ := List.map_eq_cons_iff.mp short
    obtain ⟨word, args, rfl, vlan, none_left⟩ := List.map_eq_cons_iff.mp second
    rw [List.map_eq_nil_iff.mp none_left, ofWords_noVlan no vlan] at h
    cases h

theorem startsConfig_of_accepted {ws : List String} {c : ConfigCommand} (h : ofWords ws = .ok c) :
    LineFamily.startsConfig (Text.unwords (ws.map Text.lower)) = true := by
  have claimed := claimed_of_accepted h
  obtain ⟨not_vtp, not_vlan, not_no_vlan⟩ := longer_of_accepted h
  generalize ws.map Text.lower = keywords at claimed not_vtp not_vlan not_no_vlan
  obtain ⟨opening, listed, after, rfl⟩ := claimed
  simp only [LineFamily.startsConfig, Bool.or_eq_true, Text.isPrefixOf_iff, decide_eq_true_eq]
  simp only [openings, List.mem_cons, List.not_mem_nil, or_false] at listed
  rcases listed with rfl | rfl | rfl | rfl | rfl
  · have some_left : after ≠ [] := by simpa using not_vtp
    have spaced : Text.unwords (["vtp"] ++ after) = "vtp " ++ Text.unwords after :=
      Text.unwords_cons some_left "vtp"
    exact .inl (.inl (.inl (.inl (.inl ⟨_, spaced⟩))))
  · have some_left : after ≠ [] := by simpa using not_vlan
    have spaced : Text.unwords (["vlan"] ++ after) = "vlan " ++ Text.unwords after :=
      Text.unwords_cons some_left "vlan"
    exact .inl (.inl (.inr ⟨_, spaced⟩))
  · have begins := Text.unwords_prefix (List.prefix_append ["private-vlan"] after)
    exact .inr begins
  · have some_left : after ≠ [] := by simpa using not_no_vlan
    have spaced : Text.unwords (["no", "vlan"] ++ after) = "no vlan " ++ Text.unwords after := by
      have second : Text.unwords ("vlan" :: after) = "vlan " ++ Text.unwords after :=
        Text.unwords_cons some_left "vlan"
      have first :
          Text.unwords ("no" :: "vlan" :: after) = "no " ++ Text.unwords ("vlan" :: after) :=
        Text.unwords_cons (by simp) "no"
      have whole : "no " ++ "vlan " = "no vlan " := by decide
      rw [List.cons_append, List.singleton_append, first, second, ← String.append_assoc, whole]
    exact .inl (.inr ⟨_, spaced⟩)
  · have begins := Text.unwords_prefix (List.prefix_append ["no", "vtp", "pruning"] after)
    exact .inl (.inl (.inl (.inr begins)))

theorem read_eq_notVtp_iff {line : String} (family : LineFamily.ofLine line = .config) :
    read line = .error .notVtpCommand ↔ Mistaken ((Text.words line).map Text.lower) := by
  have starts : LineFamily.startsConfig (Text.lower (Text.trim line)) = true := by
    by_contra other
    simp only [LineFamily.ofLine, other, if_false] at family
    split at family
    · cases family
    · split at family
      · cases family
      · split at family <;> cases family
  have begins := claimed_or_mistaken starts
  rw [Text.words_lower, Text.words_trim] at begins
  rw [read, ofWords_notVtp_iff]
  constructor
  · exact begins.resolve_left
  · exact not_claimed_of_mistaken

end Openings

end ConfigCommand

namespace ShowCommand

theorem opening_of_accepted {keywords : List String} {c : ShowCommand}
    (accepted : ofKeywords keywords = .ok c) :
    ["show", "vtp"] <+: keywords ∨ ["show", "vlan"] <+: keywords := by
  unfold ofKeywords at accepted
  split at accepted
  case h_5 => cases accepted
  all_goals simp

end ShowCommand

namespace LineFamily

variable {line : String}

theorem lower_trim_eq (spaced : Text.SingleSpaced line) :
    Text.lower (Text.trim line) = Text.unwords ((Text.words line).map Text.lower) := by
  rw [spaced, Text.lower_unwords]

theorem ofLine_of_config {c : ConfigCommand} (spaced : Text.SingleSpaced line)
    (accepted : ConfigCommand.read line = .ok c) : ofLine line = .config := by
  have starts : startsConfig (Text.lower (Text.trim line)) = true := by
    rw [lower_trim_eq spaced]
    exact ConfigCommand.startsConfig_of_accepted accepted
  have some_text : Text.lower (Text.trim line) ≠ "" := by
    intro none_left
    rw [none_left] at starts
    revert starts
    decide
  simp only [ofLine, some_text, starts, if_false, if_true]

theorem ofLine_of_query {c : ShowCommand} (spaced : Text.SingleSpaced line)
    (accepted : ShowCommand.read line = .ok c) : ofLine line = .query := by
  have opening := ShowCommand.opening_of_accepted accepted
  have begins : ∃ rest, Text.lower (Text.trim line) = "show vtp" ++ rest ∨
      Text.lower (Text.trim line) = "show vlan" ++ rest := by
    rw [lower_trim_eq spaced, exists_or]
    exact opening.imp Text.unwords_prefix Text.unwords_prefix
  have query : startsQuery (Text.lower (Text.trim line)) = true := by
    rw [startsQuery, Bool.or_eq_true, Text.isPrefixOf_iff, Text.isPrefixOf_iff, ← exists_or]
    exact begins
  have not_config : startsConfig (Text.lower (Text.trim line)) = false := by
    obtain ⟨rest, vtp | vlan⟩ := begins
    · simp [vtp, startsConfig, List.isPrefixOf_cons_cons, ← String.toList_inj]
    · simp [vlan, startsConfig, List.isPrefixOf_cons_cons, ← String.toList_inj]
  have some_text : Text.lower (Text.trim line) ≠ "" := by
    intro none_left
    rw [none_left] at query
    revert query
    decide
  simp only [ofLine, some_text, not_config, query, if_false, if_true, Bool.false_eq_true]

end LineFamily

theorem refused_by_a_reader (line : String) :
    (∀ c, ConfigCommand.read line ≠ .ok c) ∨ ∀ c, ShowCommand.read line ≠ .ok c := by
  by_contra both
  push Not at both
  obtain ⟨⟨c, configured⟩, ⟨c', shown⟩⟩ := both
  have claimed := ConfigCommand.claimed_of_accepted configured
  rcases ShowCommand.opening_of_accepted shown with ⟨rest, begins⟩ | ⟨rest, begins⟩ <;>
    simp [← begins, ConfigCommand.claimed_cons] at claimed

/-- Dispatch and the readers agree. On a line with its words one space apart, what a reader accepts
goes to the handler of that reader. On any line at all, no two readers accept it, a line taken for
configuration is one for the reader unless a word was mistaken for a keyword, and a line taken for
none of the readers' changes nothing. -/
theorem dispatch_agrees_with_readers (s : Service) (id line : String) :
    (Text.SingleSpaced line →
      (∀ c, ConfigCommand.read line = .ok c →
        s.route id line = ((s.handleConfig id line).1, .reply (s.handleConfig id line).2)) ∧
      ∀ c, ShowCommand.read line = .ok c →
        s.route id line = ((s.handleShow id line).1, .reply (s.handleShow id line).2)) ∧
    ((∀ c, ConfigCommand.read line ≠ .ok c) ∨ ∀ c, ShowCommand.read line ≠ .ok c) ∧
    (LineFamily.ofLine line = .config →
      (ConfigCommand.read line = .error .notVtpCommand ↔
        ConfigCommand.Mistaken ((Text.words line).map Text.lower))) ∧
    (LineFamily.ofLine line ∈ [.empty, .ping, .unknown] → (s.route id line).1 = s) := by
  refine ⟨?_, refused_by_a_reader line, ConfigCommand.read_eq_notVtp_iff, ?_⟩
  · intro spaced
    constructor
    · intro c accepted
      exact Service.route_of_config (LineFamily.ofLine_of_config spaced accepted)
    · intro c accepted
      exact Service.route_of_query (LineFamily.ofLine_of_query spaced accepted)
  · intro family
    have not_config : LineFamily.ofLine line ≠ .config := by
      intro config
      simp [config] at family
    have not_query : LineFamily.ofLine line ≠ .query := by
      intro query
      simp [query] at family
    obtain ⟨answer, idle⟩ := Service.route_of_neither id not_config not_query
    rw [idle]

theorem dispatch_agrees_with_readers_lines :
    let s := ({} : Service)
    let line := " VLAN 10,20 name Pruning \t"
    s.route "S1" line = ((s.handleConfig "S1" line).1, .reply (s.handleConfig "S1" line).2) ∧
    s.route "S1" "Show vlan" =
      ((s.handleShow "S1" "Show vlan").1, .reply (s.handleShow "S1" "Show vlan").2) ∧
    ConfigCommand.read "private-vlans isolated 30" = .error .notVtpCommand ∧
    ConfigCommand.read "vlan  30 name" ≠ .error .notVtpCommand ∧
    ConfigCommand.read "vtp\tmode off" = .ok (.setMode .off) ∧
    (s.route "S1" "vtp\tmode off").1 = s := by
  intro s line
  obtain ⟨spaced, -, -, -⟩ := dispatch_agrees_with_readers s "S1" line
  obtain ⟨spaced', -, -, -⟩ := dispatch_agrees_with_readers s "S1" "Show vlan"
  obtain ⟨-, -, config, -⟩ := dispatch_agrees_with_readers s "S1" "private-vlans isolated 30"
  obtain ⟨-, -, config', -⟩ := dispatch_agrees_with_readers s "S1" "vlan  30 name"
  obtain ⟨-, -, -, idle⟩ := dispatch_agrees_with_readers s "S1" "vtp\tmode off"
  have mistaken : ConfigCommand.Mistaken
      ((Text.words "private-vlans isolated 30").map Text.lower) := by
    have words : (Text.words "private-vlans isolated 30").map Text.lower =
        ["private-vlan" ++ "s", "isolated", "30"] := by decide
    rw [words]
    exact .privateVlan _ ⟨"s", by decide, rfl⟩
  refine ⟨?_, ?_, ?_, ?_, by decide, idle (by decide)⟩
  · exact (spaced (by decide)).1 (.defineVlans [10, 20] (some "Pruning")) (by decide)
  · exact (spaced' (by decide)).2 .vlans (by decide)
  · exact (config (by decide)).mpr mistaken
  · rw [ne_eq, config' (by decide)]
    intro mistaken'
    exact ConfigCommand.not_claimed_of_mistaken mistaken' ⟨["vlan"], by decide, by decide⟩

end VlanTrunking
