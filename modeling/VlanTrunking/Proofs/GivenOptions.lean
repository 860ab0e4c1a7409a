import Mathlib.Data.List.Nodup
import Mathlib.Logic.Function.Basic
import VlanTrunking.Settings.Options

/-! The options that flags and variables give, read off their texts. Distinct flags whose values can
be read give what they say in whatever order they stand, and the environment adds to it where they
are silent. -/
namespace VlanTrunking

def Setting.accepts : Setting → String → Bool
  | .config, text => text ≠ ""
  | .port, text => (Options.readPort text).isSome
  | .echoDelay, text | .replyDelay, text => (Options.readDelay text).isSome
  | _, _ => true

/-- A flag among the arguments. Its value follows an equals sign, or is the argument behind it. -/
structure Flag where
  setting : Setting
  value : String
  joined : Bool

namespace Flag

def arguments (f : Flag) : List String :=
  if f.joined then ["--" ++ f.setting.flag ++ "=" ++ f.value]
  else ["--" ++ f.setting.flag, f.value]

/-- The value is accepted, and is not taken for another flag where it stands. -/
structure WellFormed (f : Flag) : Prop where
  accepted : f.setting.accepts f.value
  stands : f.joined ∨ Options.isValue f.value

def text (flags : List Flag) (s : Setting) : Option String :=
  (flags.find? (·.setting = s)).map Flag.value

variable {flags : List Flag} {s : Setting}

theorem text_cons (f : Flag) :
    text (f :: flags) s = if f.setting = s then some f.value else text flags s := by
  by_cases same : f.setting = s <;> simp [text, same]

theorem text_eq_none : text flags s = none ↔ ∀ f ∈ flags, f.setting ≠ s := by
  simp [text]

theorem exists_of_text {value : String} (given : text flags s = some value) :
    ∃ f ∈ flags, f.setting = s ∧ f.value = value := by
  obtain ⟨f, found, rfl⟩ := Option.map_eq_some_iff.mp given
  exact ⟨f, List.mem_of_find?_eq_some found, by simpa using List.find?_some found, rfl⟩

theorem text_of_mem (distinct : (flags.map Flag.setting).Nodup) {f : Flag} (member : f ∈ flags) :
    text flags f.setting = some f.value := by
  cases given : text flags f.setting with
  | none => exact absurd rfl (text_eq_none.mp given f member)
  | some value =>
    obtain ⟨g, other, same, rfl⟩ := exists_of_text given
    rw [List.inj_on_of_nodup_map distinct other member same]

theorem text_of_perm {others : List Flag} (perm : flags.Perm others)
    (distinct : (flags.map Flag.setting).Nodup) : text others s = text flags s := by
  cases given : text flags s with
  | none =>
    refine text_eq_none.mpr fun f member => ?_
    exact text_eq_none.mp given f (perm.mem_iff.mpr member)
  | some value =>
    obtain ⟨f, member, rfl, rfl⟩ := exists_of_text given
    exact text_of_mem ((perm.map Flag.setting).nodup_iff.mp distinct) (perm.mem_iff.mp member)

end Flag

namespace Options

def ofTexts (text : Setting → Option String) : Options where
  config := text .config
  bind := text .bind
  port := (text .port).bind readPort
  wsPath := text .wsPath
  defaultNode := text .defaultNode
  echoDelay := (text .echoDelay).bind readDelay
  replyDelay := (text .replyDelay).bind readDelay
  logLevel := text .logLevel

variable {text : Setting → Option String} {s : Setting}

theorem has_ofTexts_of_none (not_given : text s = none) : (ofTexts text).has s = false := by
  cases s <;> simp [has, ofTexts, not_given]

theorem has_ofTexts_of_some {value : String} (is_given : text s = some value)
    (accepted : s.accepts value) : (ofTexts text).has s = true := by
  cases s <;> simp [has, ofTexts, is_given] <;> exact accepted

theorem give_ofTexts {value : String} (accepted : s.accepts value) :
    (ofTexts text).give s value = .ok (ofTexts (Function.update text s (some value))) := by
  cases s with
  | config => simp_all [Setting.accepts, give, ofTexts, Function.update]
  | port | echoDelay | replyDelay =>
    obtain ⟨n, read⟩ := Option.isSome_iff_exists.mp accepted
    simp [give, ofTexts, Function.update, read]
  | bind | wsPath | defaultNode | logLevel => simp [give, ofTexts, Function.update]

theorem Argument.ofText_flag (s : Setting) : ofText ("--" ++ s.flag) = .setting s none := by
  cases s <;> decide

theorem Argument.ofText_flag_eq (s : Setting) (value : String) :
    ofText ("--" ++ s.flag ++ "=" ++ value) = .setting s (some value) := by
  have plain : s.flag.toList.all (· ≠ '=') := by cases s <;> decide
  have found : (Setting.all.find? fun other => other.flag = s.flag) = some s := by
    cases s <;> decide
  have text : ("--" ++ s.flag ++ "=" ++ value).toList =
      '-' :: '-' :: (s.flag.toList ++ '=' :: value.toList) := by
    simp
  have name : (s.flag.toList ++ '=' :: value.toList).takeWhile (· ≠ '=') = s.flag.toList := by
    rw [List.takeWhile_append_of_pos (List.all_eq_true.mp plain),
      List.takeWhile_cons_of_neg (by simp), List.append_nil]
  have behind : (s.flag.toList ++ '=' :: value.toList).dropWhile (· ≠ '=') =
      '=' :: value.toList := by
    rw [List.dropWhile_append_of_pos (List.all_eq_true.mp plain),
      List.dropWhile_cons_of_neg (by simp)]
  cases body : s.flag.toList ++ '=' :: value.toList with
  | nil => simp at body
  | cons c cs =>
    rw [body] at text name behind
    simp only [ofText, text, name, behind, String.ofList_toList, found]

variable {flags : List Flag} {f : Flag}

theorem ofArguments_flag (wellFormed : f.WellFormed) (not_given : text f.setting = none)
    (rest : List String) :
    ofArguments (ofTexts text) (f.arguments ++ rest) =
      ofArguments (ofTexts (Function.update text f.setting (some f.value))) rest := by
  have once : (ofTexts text).giveOnce f.setting f.value =
      .ok (ofTexts (Function.update text f.setting (some f.value))) := by
    rw [giveOnce, has_ofTexts_of_none not_given]
    exact give_ofTexts wellFormed.accepted
  by_cases joined : f.joined
  · simp only [Flag.arguments, joined, if_true, List.cons_append, List.nil_append]
    rw [ofArguments, Argument.ofText_flag_eq]
    simp only [once]
    rfl
  · have stands := wellFormed.stands.resolve_left joined
    simp only [Flag.arguments, joined, Bool.false_eq_true, if_false, List.cons_append,
      List.nil_append]
    rw [ofArguments, Argument.ofText_flag]
    simp only [stands, if_true, once]
    rfl

theorem ofArguments_flags (distinct : (flags.map Flag.setting).Nodup)
    (wellFormed : ∀ f ∈ flags, f.WellFormed) (not_given : ∀ f ∈ flags, text f.setting = none) :
    ofArguments (ofTexts text) (flags.flatMap Flag.arguments) =
      .ok (ofTexts fun s => (Flag.text flags s).or (text s)) := by
  induction flags generalizing text with
  | nil => rfl
  | cons f flags ih =>
    obtain ⟨new, distinct⟩ := List.nodup_cons.mp distinct
    have others : ∀ g ∈ flags, g.setting ≠ f.setting := by
      rintro g member same
      exact new (same ▸ List.mem_map_of_mem member)
    have not_given' : ∀ g ∈ flags,
        Function.update text f.setting (some f.value) g.setting = none := by
      intro g member
      rw [Function.update_of_ne (others g member)]
      exact not_given g (List.mem_cons_of_mem f member)
    have first := ofArguments_flag (wellFormed f List.mem_cons_self)
      (not_given f List.mem_cons_self) (flags.flatMap Flag.arguments)
    have behind := ih distinct (fun g member => wellFormed g (List.mem_cons_of_mem f member))
      not_given'
    rw [List.flatMap_cons, first, behind]
    congr 2
    funext s
    by_cases same : s = f.setting
    · subst same
      simp [Flag.text_cons, Flag.text_eq_none.mpr others]
    · simp [Flag.text_cons, same, Ne.symm same]

def fillIn (environment : String → Option String) (o : Options) (s : Setting) :
    Except Stop Options :=
  if o.has s then .ok o
  else
    match environment s.environmentName with
    | none => .ok o
    | some text => o.give s text

variable {environment : String → Option String}

theorem fillIn_ofTexts (accepted : ∀ value,
      (text s).or (environment s.environmentName) = some value → s.accepts value) :
    fillIn environment (ofTexts text) s =
      .ok (ofTexts (Function.update text s ((text s).or (environment s.environmentName)))) := by
  have kept {value : Option String} (current : text s = value) :
      Function.update text s value = text := by
    rw [← current, Function.update_eq_self]
  unfold fillIn
  cases current : text s with
  | some value =>
    have is_given : (ofTexts text).has s :=
      has_ofTexts_of_some current (accepted value (by rw [current, Option.some_or]))
    rw [if_pos is_given, Option.some_or, kept current]
  | none =>
    rw [has_ofTexts_of_none current, if_neg Bool.false_ne_true, Option.none_or]
    cases found : environment s.environmentName with
    | none => rw [kept current]
    | some value => exact give_ofTexts (accepted value (by rw [current, found, Option.none_or]))

theorem foldlM_fillIn (settings : List Setting) (accepted : ∀ s value,
      (text s).or (environment s.environmentName) = some value → s.accepts value) :
    settings.foldlM (fillIn environment) (ofTexts text) = .ok (ofTexts fun s =>
      if s ∈ settings then (text s).or (environment s.environmentName) else text s) := by
  induction settings generalizing text with
  | nil => simp [pure, Except.pure]
  | cons s settings ih =>
    -- what the environment can still add to stays the same, so `accepted` carries the induction
    have total (other : Setting) :
        (Function.update text s ((text s).or (environment s.environmentName)) other).or
            (environment other.environmentName) =
          (text other).or (environment other.environmentName) := by
      by_cases same : other = s
      · subst same
        simp [Option.or_assoc]
      · rw [Function.update_of_ne same]
    rw [List.foldlM_cons, fillIn_ofTexts (accepted s)]
    refine (ih (by simpa only [total] using accepted)).trans ?_
    congr 2
    funext other
    by_cases same : other = s
    · subst same
      simp [Option.or_assoc]
    · simp [same]

theorem withEnvironment_ofTexts (accepted : ∀ s value,
      (text s).or (environment s.environmentName) = some value → s.accepts value) :
    (ofTexts text).withEnvironment environment =
      .ok (ofTexts fun s => (text s).or (environment s.environmentName)) := by
  have every (s : Setting) : s ∈ Setting.all := by cases s <;> decide
  have filled := foldlM_fillIn Setting.all accepted
  simp only [every, if_true] at filled
  exact filled

end Options

end VlanTrunking
