import VlanTrunking.Proofs.FileSettings
import VlanTrunking.Proofs.TomlOutline

/-! Configuration files that give some of the settings. Whatever settings are written, in whatever
order of the sections and of their keys, and whatever else is written with them, a file means the
defaults with just these settings in their place. -/
namespace VlanTrunking

open Toml (Item Entries Outline EscapedText FileText LineText)

/-- What is written in a file for a setting that is given. A file does not name itself. -/
def Options.item (o : Options) : Setting → Option Item
  | .config => none
  | .bind => o.bind.map .string
  | .port => o.port.map fun port => .integer port.val
  | .wsPath => o.wsPath.map .string
  | .defaultNode => o.defaultNode.map .string
  | .echoDelay => o.echoDelay.map fun (delay : Nat) => .integer delay
  | .replyDelay => o.replyDelay.map fun (delay : Nat) => .integer delay
  | .logLevel => o.logLevel.map .string

namespace Settings

def parts : List String := ["server", "ping", "log"]

def givenIn (file : Outline) (part key : String) : Option Item :=
  (file.sections.lookup part).bind (·.lookup key)

/-- The file gives these settings and no others. Keys that are not known may stand at the top, in
the three sections and in others. -/
structure Writes (file : Outline) (o : Options) : Prop where
  top : ∀ part ∈ parts, part ∉ file.top.names
  settings : ∀ {setting part key}, place? setting = some (part, key) →
    givenIn file part key = o.item setting

variable {file : Outline} {o : Options} {s : Settings}

theorem given_map {α : Type} {f : Item → Option α} {g : α → Item} (back : ∀ a, f (g a) = some a)
    (old : α) (a : Option α) : given f old (a.map g) = some (a.getD old) := by
  cases a with
  | none => rfl
  | some a => exact back a

theorem portItem?_integer (port : Port) : portItem? (.integer port.val) = some port := by
  have bounds : 0 ≤ (port.val : Int) ∧ (port.val : Int) < 65536 :=
    ⟨Int.natCast_nonneg _, Int.ofNat_lt.mpr port.isLt⟩
  rw [portItem?, Port.ofInt?, dif_pos bounds]
  rfl

@[simp] theorem given_string (old : String) (text : Option String) :
    given stringItem? old (text.map .string) = some (text.getD old) :=
  given_map (g := .string) (fun _ => rfl) old text

@[simp] theorem given_port (old : Port) (port : Option Port) :
    given portItem? old (port.map fun p => .integer p.val) = some (port.getD old) :=
  @given_map Port portItem? (fun p => .integer p.val) portItem?_integer old port

@[simp] theorem given_delay (old : Nat) (delay : Option Nat) :
    given delayItem? old (delay.map fun (n : Nat) => .integer n) = some (delay.getD old) :=
  given_map (g := fun (n : Nat) => .integer n) (fun n => by simp [delayItem?]) old delay

theorem lookup_entries {part : String} (absent : part ∉ file.top.names) :
    file.entries.lookup part = (file.sections.lookup part).map Outline.sectionItem := by
  rw [Outline.entries, List.lookup_append, Toml.lookup_eq_none absent, Option.none_or]
  induction file.sections with
  | nil => rfl
  | cons other sections ih =>
    obtain ⟨name, entries⟩ := other
    cases same : part == name <;> simp [List.lookup_cons, same, ih]

theorem withSection_entries (writes : Writes file o) {part : String} (known : part ∈ parts)
    {apply : Settings → Item → Option Settings}
    (nothing : apply s (Outline.sectionItem []) = some s) :
    withSection file.entries part apply s =
      apply s (Outline.sectionItem ((file.sections.lookup part).getD [])) := by
  rw [withSection_eq nothing, lookup_entries (writes.top part known)]
  cases file.sections.lookup part <;> rfl

theorem lookup_setting (writes : Writes file o) {setting : Setting} {part key : String}
    (place : place? setting = some (part, key)) :
    ((file.sections.lookup part).getD []).lookup key = o.item setting := by
  rw [← writes.settings place, givenIn]
  cases file.sections.lookup part <;> rfl

theorem withServer_entries (writes : Writes file o) (s : Settings) :
    withSection file.entries "server" applyServer s = some { s with
      bindAddress := o.bind.getD s.bindAddress
      port := o.port.getD s.port
      wsPath := o.wsPath.getD s.wsPath
      defaultNode := o.defaultNode.getD s.defaultNode } := by
  rw [withSection_entries writes (by decide) rfl]
  simp only [applyServer, Outline.sectionItem, sectionValues?, List.map_cons, List.map_nil]
  rw [lookup_setting writes (show place? .bind = _ from rfl),
    lookup_setting writes (show place? .port = _ from rfl),
    lookup_setting writes (show place? .wsPath = _ from rfl),
    lookup_setting writes (show place? .defaultNode = _ from rfl)]
  simp [Options.item]

theorem withPing_entries (writes : Writes file o) (s : Settings) :
    withSection file.entries "ping" applyPing s = some { s with
      echoDelay := o.echoDelay.getD s.echoDelay
      replyDelay := o.replyDelay.getD s.replyDelay } := by
  rw [withSection_entries writes (by decide) rfl]
  simp only [applyPing, Outline.sectionItem, sectionValues?, List.map_cons, List.map_nil]
  rw [lookup_setting writes (show place? .echoDelay = _ from rfl),
    lookup_setting writes (show place? .replyDelay = _ from rfl)]
  simp [Options.item]

theorem withLog_entries (writes : Writes file o) (s : Settings) :
    withSection file.entries "log" applyLog s =
      some { s with logLevel := o.logLevel.getD s.logLevel } := by
  rw [withSection_entries writes (by decide) rfl]
  simp only [applyLog, Outline.sectionItem, sectionValues?, List.map_cons, List.map_nil]
  rw [lookup_setting writes (show place? .logLevel = _ from rfl)]
  simp [Options.item]

theorem ofDocument?_entries (writes : Writes file o) :
    ofDocument? file.entries = some (o.override builtIn) := by
  simp [ofDocument?, withServer_entries writes, withPing_entries writes, withLog_entries writes,
    Options.override, builtIn]

theorem fromUTF8?_toUTF8 (text : String) : String.fromUTF8? text.toUTF8 = some text :=
  dif_pos text.isValidUTF8

/-- A file that is written in any of the ways its lines allow is loaded, and means the defaults with
the settings that it gives in their place. -/
theorem partial_files_override_defaults (o : Options) (file : Outline) (text : String)
    (distinct : file.Distinct) (writes : Writes file o)
    (written : FileText file.lines text.toList) :
    ofFile (some text.toUTF8) = .ok (o.override builtIn) := by
  have read : Toml.read? text = some file.entries := Outline.read?_eq distinct written
  have loaded : ofText? text = some (o.override builtIn) := by
    rw [ofText?, read, Option.bind_some, ofDocument?_entries writes]
  simp only [ofFile, fromUTF8?_toUTF8, loaded]

theorem partial_files_override_defaults_given :
    ofFile (some ("seen = 1979-05-27" ++ "\r\n" ++ "[log]" ++ "\n" ++
        "level = \"\\u0064ebug \\\"#[server]\\\"\"" ++ "\n" ++ "\n" ++ "[server]" ++ "\n" ++
        "port = 9000" ++ "\n" ++ "\"no port\"\t=false" ++ "\n" ++
        "ws_path = \"/\\U0001f600\"").toUTF8) =
      .ok { builtIn with logLevel := "debug \"#[server]\"", port := 9000, wsPath := "/😀" } := by
  let o : Options :=
    { logLevel := some "debug \"#[server]\"", port := some 9000, wsPath := some "/😀" }
  let file : Outline :=
    ⟨[("seen", .moment "1979-05-27".toList)],
      [("log", [("level", .string "debug \"#[server]\"")]),
        ("server", [("port", .integer 9000), ("no port", .boolean false),
          ("ws_path", .string "/😀")])]⟩
  have distinct : file.Distinct := ⟨by decide, by decide⟩
  have writes : Writes file o := by
    refine ⟨by decide, fun {setting part key} place => ?_⟩
    cases setting <;> cases place <;> rfl
  have gap : Toml.Spaces [' '] := by decide
  have plain (text : List Char) {s cs : List Char}
      (unescaped : text.all (fun c => Toml.isPrintable c && c != '"' && c != '\\') = true)
      (rest : EscapedText s cs) : EscapedText (text ++ s) (text ++ cs) :=
    rest.append_plain unescaped
  have moment : Toml.value? "1979-05-27".toList = some (.moment "1979-05-27".toList, []) :=
    Toml.value?_of_scalar (by decide) rfl
  have no : Toml.value? "false".toList = some (.boolean false, []) :=
    Toml.value?_of_scalar (by decide) rfl
  have seen : LineText (.entry ["seen"] (.moment "1979-05-27".toList)) "seen = 1979-05-27".toList :=
    .entry (.bare (by decide) (by decide)) gap gap (.other moment)
  have log : LineText (.header ["log"]) "[log]".toList := .header (.bare (by decide) (by decide))
  have server : LineText (.header ["server"]) "[server]".toList :=
    .header (.bare (by decide) (by decide))
  have port : LineText (.entry ["port"] (.integer 9000)) "port = 9000".toList :=
    .entry (.bare (by decide) (by decide)) gap gap (.integer (by decide))
  have no_port : LineText (.entry ["no port"] (.boolean false)) "\"no port\"\t=false".toList :=
    .entry (.basic (plain "no port".toList (by decide) .done)) (show Toml.Spaces ['\t'] by decide)
      (show Toml.Spaces [] by decide) (.other no)
  have quote {s cs : List Char} (rest : EscapedText s cs) :
      EscapedText ('"' :: s) ('\\' :: '"' :: cs) := .short rfl rest
  have escaped : EscapedText "debug \"#[server]\"".toList
      "\\u0064ebug \\\"#[server]\\\"".toList :=
    .numbered (show "0064".toList.length = 4 from rfl) rfl (plain "ebug ".toList (by decide)
      (quote (plain "#[server]".toList (by decide) (quote .done))))
  have level : LineText (.entry ["level"] (.string "debug \"#[server]\""))
      "level = \"\\u0064ebug \\\"#[server]\\\"\"".toList :=
    .entry (.bare (by decide) (by decide)) gap gap (.string escaped)
  have escaped_path : EscapedText "/😀".toList "/\\U0001f600".toList :=
    plain "/".toList (by decide)
      (.longNumbered (show "0001f600".toList.length = 8 from rfl) rfl .done)
  have path : LineText (.entry ["ws_path"] (.string "/😀")) "ws_path = \"/\\U0001f600\"".toList :=
    .entry (.bare (by decide) (by decide)) gap gap (.string escaped_path)
  have blank : LineText .blank [] := .blank (by decide)
  have lines := FileText.line seen .returned (.line log .feed (.line level .feed (.blank blank .feed
    (.line server .feed (.line port .feed (.line no_port .feed (.line path .last .done)))))))
  refine partial_files_override_defaults o file _ distinct writes ?_
  simp only [String.toList_append, List.append_assoc]
  exact lines

end Settings

end VlanTrunking
