import VlanTrunking.Console.Request

/-! The events that a console shows. An event is a JSON object whose member event tells which kind
it is, or an array of that tag and the event's fields in order. Members that an event does not have
are passed over, but what they hold must make sense: texts, finite numbers, and no more than a
bounded nesting. -/
namespace VlanTrunking

inductive ConsoleEvent where
  | log (message : String) (origin : Option String)
  | flow (source target protocol : String)
  deriving DecidableEq, Repr

namespace ConsoleEvent

def tag : ConsoleEvent → String
  | log .. => "log"
  | flow .. => "flow"

def notice (message : String) : ConsoleEvent := log message none

def logFrom (origin message : String) : ConsoleEvent := log message (some origin)

def nestingLimit : Nat := 127

def ofFields? : String → List Json → Option ConsoleEvent
  | "log", [message] => do return log (← message.string?) none
  | "log", [message, origin] => do return log (← message.string?) (← origin.stringOrNull?)
  | "flow", [source, target, protocol] => do
    return flow (← source.string?) (← target.string?) (← protocol.string?)
  | _, _ => none

def ofMembers? (tag : String) (members : List (String × Json)) : Option ConsoleEvent :=
  match tag with
  | "log" => do
    let message ← Json.member members "message" Json.string? none
    let origin ← Json.member members "origin" Json.stringOrNull? (some none)
    return log message origin
  | "flow" => do
    let source ← Json.member members "from" Json.string? none
    let target ← Json.member members "to" Json.string? none
    let protocol ← Json.member members "proto" Json.string? none
    return flow source target protocol
  | _ => none

def ofJson? : Json → Option ConsoleEvent
  | .array (tag :: fields) => do ofFields? (← tag.string?) fields
  | .object members => do
    let members ← Json.textMembers? members
    let tag ← Json.member members "event" Json.string? none
    ofMembers? tag members
  | _ => none

def decode? (text : String) : Option ConsoleEvent :=
  (Json.read? text).bind fun v => if v.isPlain nestingLimit then ofJson? v else none

def encodeMembers (members : List (String × String)) : String :=
  "\x7b" ++ ",".intercalate (members.map fun (key, v) => Json.quote key ++ ":" ++ Json.quote v) ++
    "\x7d"

def encode : ConsoleEvent → String
  | log message none => encodeMembers [("event", "log"), ("message", message)]
  | log message (some origin) =>
    encodeMembers [("event", "log"), ("message", message), ("origin", origin)]
  | flow source target protocol =>
    encodeMembers [("event", "flow"), ("from", source), ("to", target), ("proto", protocol)]

end ConsoleEvent

end VlanTrunking
