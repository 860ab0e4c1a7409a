import Mathlib.Data.List.Nodup
import VlanTrunking.Settings.Options

/-! What a configuration file says about each setting. Once it loads, its sections give every setting
on its own, whether they are tables or arrays. -/
namespace VlanTrunking

namespace Settings

def builtIn : Settings := {}

def documentIn? (content : Option ByteArray) : Option Toml.Entries := do
  Toml.read? (← String.fromUTF8? (← content))

def keys : String → List String
  | "server" => ["bind_address", "port", "ws_path", "default_node"]
  | "ping" => ["echo_delay_ms", "reply_delay_ms"]
  | "log" => ["level"]
  | _ => []

def place? : Setting → Option (String × String)
  | .config => none
  | .bind => some ("server", "bind_address")
  | .port => some ("server", "port")
  | .wsPath => some ("server", "ws_path")
  | .defaultNode => some ("server", "default_node")
  | .echoDelay => some ("ping", "echo_delay_ms")
  | .replyDelay => some ("ping", "reply_delay_ms")
  | .logLevel => some ("log", "level")

/-- What a section gives for one of its keys. -/
def valueAt? (keys : List String) (key : String) : Toml.Item → Option Toml.Item
  | .table _ entries => entries.lookup key
  | .array items => items[keys.idxOf key]?
  | .tables elements => elements[keys.idxOf key]?.map (Toml.Item.table .header)
  | _ => none

def itemOf? (entries : Toml.Entries) (s : Setting) : Option Toml.Item := do
  let (part, key) ← place? s
  valueAt? (keys part) key (← entries.lookup part)

variable {entries : Toml.Entries} {s after : Settings}

theorem eq_of_given {α} {read : Toml.Item → Option α} {old new : α} {item : Option Toml.Item}
    (h : given read old item = some new) : new = (item.bind read).getD old := by
  cases item with
  | none => exact (Option.some.inj h).symm
  | some item =>
    change read item = some new at h
    rw [Option.bind_some, h, Option.getD_some]

theorem sectionValues?_eq {keys : List String} (distinct : keys.Nodup) {v : Toml.Item}
    {values : List (Option Toml.Item)} (h : sectionValues? keys v = some values) :
    values = keys.map fun key => valueAt? keys key v := by
  have in_order {α} (at_place : Nat → α) :
      (keys.zipIdx.map fun entry => at_place entry.2) =
        keys.map fun key => at_place (keys.idxOf key) := by
    refine List.ext_getElem (by simp) fun place _ bound => ?_
    rw [List.length_map] at bound
    simp [distinct.idxOf_getElem place bound]
  unfold sectionValues? at h
  split at h <;> cases h
  · rfl
  · exact in_order (_[·]?)
  · exact in_order fun place => Option.map (Toml.Item.table .header) _[place]?
  · rfl

theorem of_bind_sectionValues? {keys : List String} (distinct : keys.Nodup) {v : Toml.Item}
    {apply : List (Option Toml.Item) → Option Settings}
    (h : (sectionValues? keys v >>= apply) = some after) :
    apply (keys.map fun key => valueAt? keys key v) = some after := by
  obtain ⟨values, read, h⟩ := Option.bind_eq_some_iff.mp h
  rwa [sectionValues?_eq distinct read] at h

def ofItems (item : Setting → Option Toml.Item) : Settings where
  bindAddress := ((item .bind).bind stringItem?).getD builtIn.bindAddress
  port := ((item .port).bind portItem?).getD builtIn.port
  wsPath := ((item .wsPath).bind stringItem?).getD builtIn.wsPath
  defaultNode := ((item .defaultNode).bind stringItem?).getD builtIn.defaultNode
  echoDelay := ((item .echoDelay).bind delayItem?).getD builtIn.echoDelay
  replyDelay := ((item .replyDelay).bind delayItem?).getD builtIn.replyDelay
  logLevel := ((item .logLevel).bind stringItem?).getD builtIn.logLevel

theorem withSection_eq {part : String} {apply : Settings → Toml.Item → Option Settings}
    (nothing : apply s (.table .header []) = some s) :
    withSection entries part apply s =
      apply s ((entries.lookup part).getD (.table .header [])) := by
  unfold withSection
  cases entries.lookup part with
  | none => exact nothing.symm
  | some v => rfl

theorem itemOf?_eq {setting : Setting} {part key : String}
    (place : place? setting = some (part, key)) :
    itemOf? entries setting =
      valueAt? (keys part) key ((entries.lookup part).getD (.table .header [])) := by
  simp only [itemOf?, place, Option.bind_eq_bind, Option.bind_some]
  cases entries.lookup part <;> rfl

theorem eq_of_given_value {α} {read : Toml.Item → Option α} {old new : α} (setting : Setting)
    {part key : String} (place : place? setting = some (part, key))
    (h : given read old
      (valueAt? (keys part) key ((entries.lookup part).getD (.table .header []))) = some new) :
    new = ((itemOf? entries setting).bind read).getD old := by
  rw [itemOf?_eq place]
  exact eq_of_given h

theorem of_withServer (h : withSection entries "server" applyServer s = some after) :
    after = { s with
      bindAddress := ((itemOf? entries .bind).bind stringItem?).getD s.bindAddress
      port := ((itemOf? entries .port).bind portItem?).getD s.port
      wsPath := ((itemOf? entries .wsPath).bind stringItem?).getD s.wsPath
      defaultNode := ((itemOf? entries .defaultNode).bind stringItem?).getD s.defaultNode } := by
  rw [withSection_eq rfl, applyServer] at h
  have values := of_bind_sectionValues? (by decide) h
  simp only [List.map_cons, List.map_nil, Option.bind_eq_bind, Option.bind_eq_some_iff] at values
  obtain ⟨bindAddress, h₁, port, h₂, wsPath, h₃, defaultNode, h₄, same⟩ := values
  cases same
  rw [← eq_of_given_value .bind rfl h₁, ← eq_of_given_value .port rfl h₂,
    ← eq_of_given_value .wsPath rfl h₃, ← eq_of_given_value .defaultNode rfl h₄]

theorem of_withPing (h : withSection entries "ping" applyPing s = some after) :
    after = { s with
      echoDelay := ((itemOf? entries .echoDelay).bind delayItem?).getD s.echoDelay
      replyDelay := ((itemOf? entries .replyDelay).bind delayItem?).getD s.replyDelay } := by
  rw [withSection_eq rfl, applyPing] at h
  have values := of_bind_sectionValues? (by decide) h
  simp only [List.map_cons, List.map_nil, Option.bind_eq_bind, Option.bind_eq_some_iff] at values
  obtain ⟨echoDelay, h₁, replyDelay, h₂, same⟩ := values
  cases same
  rw [← eq_of_given_value .echoDelay rfl h₁, ← eq_of_given_value .replyDelay rfl h₂]

theorem of_withLog (h : withSection entries "log" applyLog s = some after) :
    after = { s with
      logLevel := ((itemOf? entries .logLevel).bind stringItem?).getD s.logLevel } := by
  rw [withSection_eq rfl, applyLog] at h
  have values := of_bind_sectionValues? (by decide) h
  simp only [List.map_cons, List.map_nil, Option.bind_eq_bind, Option.bind_eq_some_iff] at values
  obtain ⟨logLevel, h₁, same⟩ := values
  cases same
  rw [← eq_of_given_value .logLevel rfl h₁]

theorem of_ofDocument? (h : ofDocument? entries = some s) : s = ofItems (itemOf? entries) := by
  simp only [ofDocument?, Option.bind_eq_bind, Option.bind_eq_some_iff] at h
  obtain ⟨server, h₁, ping, h₂, h₃⟩ := h
  cases of_withServer h₁
  cases of_withPing h₂
  exact of_withLog h₃

theorem of_ofFile {content : Option ByteArray} (h : ofFile content = .ok s) :
    s = ofItems fun setting => (documentIn? content).bind (itemOf? · setting) := by
  unfold ofFile at h
  split at h
  · cases h
  · split at h
    · cases h
    · next bytes text decoded =>
      split at h
      · cases h
      · next loaded =>
        cases h
        obtain ⟨entries, read, loaded⟩ := Option.bind_eq_some_iff.mp loaded
        simp only [documentIn?, Option.bind_eq_bind, Option.bind_some, decoded, read]
        exact of_ofDocument? loaded

end Settings

end VlanTrunking
