import VlanTrunking.Proofs.FileSettings
import VlanTrunking.Proofs.GivenOptions

/-! Where the settings of a start come from. Each setting on its own is taken from its flag, or else
from its variable, or else from the file, or else by default, and the start answers with what the
settings taken so mean. What a source says behind the one that a setting is taken from makes no
difference, not even when it could not be read. -/
namespace VlanTrunking

structure Sources where
  flags : List Flag
  environment : String → Option String
  files : String → Option ByteArray

namespace Sources

def start (src : Sources) : Except Stop ServerConfig :=
  Options.start (src.flags.flatMap Flag.arguments) src.environment src.files

def text (src : Sources) (s : Setting) : Option String :=
  (Flag.text src.flags s).or (src.environment s.environmentName)

def document? (src : Sources) : Option Toml.Entries :=
  (src.text .config).bind fun name => Settings.documentIn? (src.files name)

def item (src : Sources) (s : Setting) : Option Toml.Item :=
  src.document?.bind (Settings.itemOf? · s)

/-- What a setting comes to: its text decides if one is given, or else the file, or else the
default. -/
def value {α} (src : Sources) (s : Setting) (read : String → Option α)
    (readItem : Toml.Item → Option α) (default : α) : α :=
  match src.text s with
  | some text => (read text).getD default
  | none => ((src.item s).bind readItem).getD default

def settings (src : Sources) : Settings where
  bindAddress := src.value .bind some Settings.stringItem? Settings.builtIn.bindAddress
  port := src.value .port Options.readPort Settings.portItem? Settings.builtIn.port
  wsPath := src.value .wsPath some Settings.stringItem? Settings.builtIn.wsPath
  defaultNode := src.value .defaultNode some Settings.stringItem? Settings.builtIn.defaultNode
  echoDelay := src.value .echoDelay Options.readDelay Settings.delayItem? Settings.builtIn.echoDelay
  replyDelay := src.value .replyDelay Options.readDelay Settings.delayItem? Settings.builtIn.replyDelay
  logLevel := src.value .logLevel some Settings.stringItem? Settings.builtIn.logLevel

def Loads (src : Sources) : Prop :=
  ∀ name, src.text .config = some name → ∃ base, Settings.ofFile (src.files name) = .ok base

/-- No flag is given twice, all of them and the variables of the others can be read, and the file
that is named loads. -/
structure WellFormed (src : Sources) : Prop where
  distinct : (src.flags.map Flag.setting).Nodup
  flags : ∀ f ∈ src.flags, f.WellFormed
  environment : ∀ s, Flag.text src.flags s = none →
    ∀ text, src.environment s.environmentName = some text → s.accepts text
  loads : src.Loads

/-- Other sources have the same flags in some order, the same variables where no flag is given, and
a file that gives the same where neither is. -/
structure SameTaken (src other : Sources) : Prop where
  flags : src.flags.Perm other.flags
  environment : ∀ s, Flag.text src.flags s = none →
    other.environment s.environmentName = src.environment s.environmentName
  loads : other.Loads
  items : ∀ s, src.text s = none → other.item s = src.item s

end Sources

namespace Settings

theorem exists_validate_eq_ok (s : Settings) :
    (∃ config, s.validate = .ok config) ↔
      (IpAddress.read? s.bindAddress).isSome ∧ s.wsPath.toList.head? = some '/' := by
  simp [validate_eq_ok_iff, Option.isSome_iff_exists]

end Settings

namespace Sources

variable {src other : Sources}

theorem baseSettings_eq (loads : src.Loads) :
    (Options.ofTexts src.text).baseSettings src.files = .ok (Settings.ofItems src.item) := by
  have items : src.item = fun s => ((src.text .config).bind fun name =>
      Settings.documentIn? (src.files name)).bind (Settings.itemOf? · s) := rfl
  have named : (Options.ofTexts src.text).config = src.text .config := rfl
  rw [Options.baseSettings, named, items]
  cases given : src.text .config with
  | none => rfl
  | some name =>
    obtain ⟨base, loaded⟩ := loads name given
    dsimp only
    rw [loaded, Settings.of_ofFile loaded]
    rfl

theorem value_eq {α} {s : Setting} {read : String → Option α} {readItem : Toml.Item → Option α}
    {default : α} (readable : ∀ text, src.text s = some text → (read text).isSome) :
    ((src.text s).bind read).getD (((src.item s).bind readItem).getD default) =
      src.value s read readItem default := by
  unfold value
  cases given : src.text s with
  | none => rfl
  | some text =>
    obtain ⟨value, h⟩ := Option.isSome_iff_exists.mp (readable text given)
    simp [h]

theorem override_ofItems (accepted : ∀ s text, src.text s = some text → s.accepts text) :
    (Options.ofTexts src.text).override (Settings.ofItems src.item) = src.settings := by
  have plain {s : Setting} {item : Toml.Item → Option String} {default : String} :
      (src.text s).getD (((src.item s).bind item).getD default) =
        src.value s some item default := by
    rw [← value_eq fun _ _ => rfl, Option.bind_fun_some]
  simp only [Options.override, Options.ofTexts, Settings.ofItems, settings, plain]
  rw [value_eq (accepted .port), value_eq (accepted .echoDelay), value_eq (accepted .replyDelay)]

namespace WellFormed

variable (wellFormed : src.WellFormed)
include wellFormed

theorem accepted (s : Setting) (text : String) (given : src.text s = some text) :
    s.accepts text := by
  rcases Option.or_eq_some_iff.mp given with of_flag | ⟨no_flag, of_variable⟩
  · obtain ⟨f, member, rfl, rfl⟩ := Flag.exists_of_text of_flag
    exact (wellFormed.flags f member).accepted
  · exact wellFormed.environment s no_flag text of_variable

theorem start_eq : src.start = src.settings.validate.mapError Stop.invalid := by
  have flags : Options.ofArguments {} (src.flags.flatMap Flag.arguments) =
      .ok (Options.ofTexts (Flag.text src.flags)) := by
    have read : Options.ofArguments (Options.ofTexts fun _ => none) _ = .ok _ :=
      Options.ofArguments_flags wellFormed.distinct wellFormed.flags fun _ _ => rfl
    simp only [Option.or_none] at read
    exact read
  have environment : (Options.ofTexts (Flag.text src.flags)).withEnvironment src.environment =
      .ok (Options.ofTexts src.text) :=
    Options.withEnvironment_ofTexts wellFormed.accepted
  simp only [start, Options.start, bind, Except.bind, flags, environment,
    baseSettings_eq wellFormed.loads, override_ofItems wellFormed.accepted]
  cases src.settings.validate <;> rfl

theorem text_eq (same : src.SameTaken other) : other.text = src.text := by
  funext s
  unfold text
  rw [Flag.text_of_perm same.flags wellFormed.distinct]
  cases of_flag : Flag.text src.flags s with
  | none => rw [same.environment s of_flag]
  | some value => rfl

theorem of_sameTaken (same : src.SameTaken other) : other.WellFormed where
  distinct := (same.flags.map Flag.setting).nodup_iff.mp wellFormed.distinct
  flags f member := wellFormed.flags f (same.flags.mem_iff.mpr member)
  environment s no_flag := by
    rw [Flag.text_of_perm same.flags wellFormed.distinct] at no_flag
    rw [same.environment s no_flag]
    exact wellFormed.environment s no_flag
  loads := same.loads

theorem settings_eq (same : src.SameTaken other) : other.settings = src.settings := by
  have taken {α : Type} (s : Setting) (read : String → Option α) (readItem : Toml.Item → Option α)
      (default : α) : other.value s read readItem default = src.value s read readItem default := by
    unfold value
    rw [wellFormed.text_eq same]
    cases given : src.text s with
    | none => rw [same.items s given]
    | some text => rfl
  simp only [settings, taken]

end WellFormed

end Sources

/-- A start answers with what its settings mean, each taken from its flag, or else from its
variable, or else from the file, or else by default. The order of the flags, and all that comes
behind the source that a setting is taken from, make no difference, and only an address or a path
that is taken can be wrong. -/
theorem start_takes_settings (src : Sources) (wellFormed : src.WellFormed) :
    src.start = src.settings.validate.mapError Stop.invalid ∧
      (∀ other, src.SameTaken other → other.start = src.start) ∧
      ((∃ config, src.start = .ok config) ↔
        (IpAddress.read? src.settings.bindAddress).isSome ∧
          src.settings.wsPath.toList.head? = some '/') := by
  refine ⟨wellFormed.start_eq, fun other same => ?_, ?_⟩
  · rw [(wellFormed.of_sameTaken same).start_eq, wellFormed.settings_eq same, wellFormed.start_eq]
  · rw [wellFormed.start_eq, ← Settings.exists_validate_eq_ok]
    cases src.settings.validate <;> simp [Except.mapError]

def replacing : Sources where
  flags := [⟨.port, "9000", true⟩, ⟨.bind, "127.0.0.1", false⟩]
  environment
    | "VTP_CONFIG" => some "vtp.toml"
    | "VTP_PORT" => some "eighty"
    | "VTP_WS_PATH" => some "/sim"
    | _ => none
  files
    | "vtp.toml" => some "server = [\"here\", 80, \"ws\"]\nping.reply_delay_ms = 20".toUTF8
    | _ => none

def replaced : Sources where
  flags := replacing.flags.reverse
  environment name := if name = "VTP_PORT" then none else replacing.environment name
  files _ := some "ping.reply_delay_ms = 20".toUTF8

theorem start_takes_settings_replacing :
    replacing.start = .ok {
      bind := ⟨.v4 ⟨127, 0, 0, 1⟩, ⟨9000, by decide⟩⟩
      wsPath := "/sim"
      console := { defaultNode := "PC1", timing := ⟨500, 20⟩ }
      logLevel := "info" } ∧
    replaced.start = replacing.start := by
  have wellFormed : replacing.WellFormed :=
    { distinct := by decide
      flags := List.forall_mem_cons.mpr ⟨⟨by decide, by decide⟩,
        List.forall_mem_singleton.mpr ⟨by decide, by decide⟩⟩
      environment := by
        intro s no_flag text found
        cases s <;> cases no_flag <;> cases found <;> decide
      loads := by
        rintro name ⟨⟩
        exact ⟨{ bindAddress := "here", port := 80, wsPath := "ws", replyDelay := 20 },
          by decide +kernel⟩ }
  have document : replacing.document? =
      some [("server", .array [.string "here", .integer 80, .string "ws"]),
        ("ping", .table .dotted [("reply_delay_ms", .integer 20)])] := by
    with_unfolding_all rfl
  have document' : replaced.document? =
      some [("ping", .table .dotted [("reply_delay_ms", .integer 20)])] := by
    with_unfolding_all rfl
  have same : replacing.SameTaken replaced :=
    { flags := (List.reverse_perm _).symm
      environment := by
        intro s no_flag
        cases s <;> cases no_flag <;> rfl
      loads := by
        rintro name ⟨⟩
        exact ⟨{ replyDelay := 20 }, by decide +kernel⟩
      items := by
        intro s not_given
        rw [Sources.item, Sources.item, document, document']
        cases s <;> cases not_given <;> rfl }
  obtain ⟨answer, others, -⟩ := start_takes_settings replacing wellFormed
  exact ⟨answer.trans (by decide +kernel), others replaced same⟩

end VlanTrunking
