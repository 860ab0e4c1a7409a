import VlanTrunking.Settings.Basic
import VlanTrunking.Toml.Document

/-! The configuration file. It has three sections, and each setting that it leaves out keeps its
default. A section is a table, or an array of its settings in order; keys and sections that are not
known are passed over. -/
namespace VlanTrunking

inductive FileError where
  | notFound
  | notText
  | malformed
  deriving DecidableEq, Repr

namespace Settings

/-- The values that a section gives for its keys. A date or time stands for a section
without any. -/
def sectionValues? (keys : List String) : Toml.Item → Option (List (Option Toml.Item))
  | .table _ entries => some (keys.map fun key => entries.lookup key)
  | .array items => some (keys.zipIdx.map fun (_, place) => items[place]?)
  | .tables elements =>
    some (keys.zipIdx.map fun (_, place) => elements[place]?.map (Toml.Item.table .header))
  | .moment _ => some (keys.map fun _ => none)
  | _ => none

def stringItem? : Toml.Item → Option String
  | .string s => some s
  | _ => none

def portItem? : Toml.Item → Option Port
  | .integer n => Port.ofInt? n
  | _ => none

def delayItem? : Toml.Item → Option Nat
  | .integer n => if 0 ≤ n then some n.toNat else none
  | _ => none

def given {α} (read : Toml.Item → Option α) (old : α) : Option Toml.Item → Option α
  | none => some old
  | some v => read v

def applyServer (s : Settings) (v : Toml.Item) : Option Settings := do
  match ← sectionValues? ["bind_address", "port", "ws_path", "default_node"] v with
  | [bindAddress, port, wsPath, defaultNode] =>
    return { s with
      bindAddress := ← given stringItem? s.bindAddress bindAddress
      port := ← given portItem? s.port port
      wsPath := ← given stringItem? s.wsPath wsPath
      defaultNode := ← given stringItem? s.defaultNode defaultNode }
  | _ => none

def applyPing (s : Settings) (v : Toml.Item) : Option Settings := do
  match ← sectionValues? ["echo_delay_ms", "reply_delay_ms"] v with
  | [echoDelay, replyDelay] =>
    return { s with
      echoDelay := ← given delayItem? s.echoDelay echoDelay
      replyDelay := ← given delayItem? s.replyDelay replyDelay }
  | _ => none

def applyLog (s : Settings) (v : Toml.Item) : Option Settings := do
  match ← sectionValues? ["level"] v with
  | [level] => return { s with logLevel := ← given stringItem? s.logLevel level }
  | _ => none

def withSection (entries : Toml.Entries) (name : String)
    (apply : Settings → Toml.Item → Option Settings) (s : Settings) : Option Settings :=
  match entries.lookup name with
  | none => some s
  | some v => apply s v

def ofDocument? (entries : Toml.Entries) : Option Settings := do
  let s ← withSection entries "server" applyServer {}
  let s ← withSection entries "ping" applyPing s
  withSection entries "log" applyLog s

def ofText? (text : String) : Option Settings := (Toml.read? text).bind ofDocument?

/-- The settings that a file gives; the file is missing, or else it has some bytes. -/
def ofFile (content : Option ByteArray) : Except FileError Settings :=
  match content with
  | none => .error .notFound
  | some bytes =>
    match String.fromUTF8? bytes with
    | none => .error .notText
    | some text =>
      match ofText? text with
      | none => .error .malformed
      | some s => .ok s

end Settings

end VlanTrunking
