import VlanTrunking.Json.Token

/-! JSON values as they are written, and their reader. Strings and numbers keep their written form,
so that a text may be accepted whose strings or numbers have no value of their own. The reader keeps
the containers that are still open on a stack of its own and takes any depth of nesting. -/
namespace VlanTrunking

inductive Json where
  | scalar (s : Json.Scalar)
  | array (items : List Json)
  | object (members : List (List Json.TextUnit × Json))
  deriving Repr

namespace Json

/-- A container that is still open, with what it holds so far, latest first. An open object waits
for the value of a key. -/
inductive Frame where
  | array (before : List Json)
  | object (before : List (List TextUnit × Json)) (key : List TextUnit)

inductive Expecting where
  | value
  | firstItem
  | firstKey
  | key (before : List (List TextUnit × Json))
  | colon (before : List (List TextUnit × Json)) (key : List TextUnit)
  | next (complete : Json)

structure Reader where
  stack : List Frame := []
  expecting : Expecting := .value

namespace Reader

def startValue (stack : List Frame) : Token → Option Reader
  | .scalar s => some ⟨stack, .next (Json.scalar s)⟩
  | .openBracket => some ⟨stack, .firstItem⟩
  | .openBrace => some ⟨stack, .firstKey⟩
  | _ => none

def afterValue (v : Json) : List Frame → Token → Option Reader
  | .array before :: stack, .comma => some ⟨.array (v :: before) :: stack, .value⟩
  | .array before :: stack, .closeBracket =>
    some ⟨stack, .next (Json.array (v :: before).reverse)⟩
  | .object before key :: stack, .comma => some ⟨stack, .key ((key, v) :: before)⟩
  | .object before key :: stack, .closeBrace =>
    some ⟨stack, .next (Json.object ((key, v) :: before).reverse)⟩
  | _, _ => none

def step (r : Reader) (t : Token) : Option Reader :=
  match r.expecting, t with
  | .value, t => startValue r.stack t
  | .firstItem, .closeBracket => some ⟨r.stack, .next (Json.array [])⟩
  | .firstItem, t => startValue (.array [] :: r.stack) t
  | .firstKey, .closeBrace => some ⟨r.stack, .next (Json.object [])⟩
  | .firstKey, .scalar (.string key) => some ⟨r.stack, .colon [] key⟩
  | .key before, .scalar (.string key) => some ⟨r.stack, .colon before key⟩
  | .colon before key, .colon => some ⟨.object before key :: r.stack, .value⟩
  | .next v, t => afterValue v r.stack t
  | _, _ => none

def finish (r : Reader) : Option Json :=
  match r.stack, r.expecting with
  | [], .next v => some v
  | _, _ => none

end Reader

def ofTokens? (ts : List Token) : Option Json := (ts.foldlM Reader.step {}).bind Reader.finish

def read? (text : String) : Option Json := (tokens? text.toList).bind ofTokens?

def string? : Json → Option String
  | scalar (.string units) => textOf? units
  | _ => none

def stringOrNull? : Json → Option (Option String)
  | scalar .null => some none
  | v => v.string?.map some

/-- Whether every string has a text, every number is finite, and containers nest at most `depth`
deep. -/
def isPlain : Nat → Json → Bool
  | _, scalar (.string units) => (textOf? units).isSome
  | _, scalar (.number n) => n.isFinite
  | _, scalar _ => true
  | 0, _ => false
  | depth + 1, array items => items.all (isPlain depth)
  | depth + 1, object members =>
    members.all fun (key, v) => (textOf? key).isSome && isPlain depth v

end Json

end VlanTrunking
