import VlanTrunking.Json.Value
import VlanTrunking.Text.Blank

/-! The requests of a console. A request is a JSON object with the keys command and node, or an
array that gives their values in this order. Both may be missing; a node may also be null. Other
keys are passed over whatever their value holds, but a key must be a text and may not be given
twice. -/
namespace VlanTrunking

structure CommandRequest where
  command : String := ""
  node : Option String := none
  deriving DecidableEq, Repr, Inhabited

def Json.textMembers? (members : List (List Json.TextUnit × Json)) :
    Option (List (String × Json)) :=
  members.mapM fun (key, v) => (textOf? key).map (·, v)

/-- The one value of a key, read by `f`, or a default if there is none. -/
def Json.member {α} (members : List (String × Json)) (key : String) (f : Json → Option α)
    (default : Option α) : Option α :=
  match members.filter (·.1 = key) with
  | [] => default
  | [(_, v)] => f v
  | _ => none

namespace CommandRequest

def ofJson? : Json → Option CommandRequest
  | .scalar _ => none
  | .array [] => some {}
  | .array [command] => do return { command := ← command.string? }
  | .array [command, node] => do
    return { command := ← command.string?, node := ← node.stringOrNull? }
  | .array _ => none
  | .object members => do
    let members ← Json.textMembers? members
    let command ← Json.member members "command" Json.string? (some "")
    let node ← Json.member members "node" Json.stringOrNull? (some none)
    return { command, node }

def decode? (text : String) : Option CommandRequest := (Json.read? text).bind ofJson?

def encode (r : CommandRequest) : String :=
  let node := match r.node with
    | some node => Json.quote node
    | none => "null"
  "\x7b\"command\":" ++ Json.quote r.command ++ ",\"node\":" ++ node ++ "\x7d"

/-- The switch that a request is for: its node, unless that is missing or blank. -/
def deviceId (r : CommandRequest) (defaultNode : String) : String :=
  match r.node.map Text.trim with
  | some node => if node = "" then defaultNode else node
  | none => defaultNode

end CommandRequest

end VlanTrunking
