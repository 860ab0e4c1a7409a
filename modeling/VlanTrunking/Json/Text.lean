import VlanTrunking.Text.Hexadecimal

/-! JSON strings. What stands between the quotes is a sequence of units, each a character or a
UTF-16 code unit given by its number. Units mean a text only if every code unit of a surrogate pair
has its partner beside it. A text is written with the short escapes where there are any, other
control characters by number, and everything else as it is. -/
namespace VlanTrunking.Json

inductive TextUnit where
  | char (c : Char)
  | code (n : Nat)
  deriving DecidableEq, Repr

def IsLeading (n : Nat) : Prop := 0xD800 ≤ n ∧ n < 0xDC00

def IsTrailing (n : Nat) : Prop := 0xDC00 ≤ n ∧ n < 0xE000

instance (n : Nat) : Decidable (IsLeading n) := inferInstanceAs (Decidable (_ ∧ _))

instance (n : Nat) : Decidable (IsTrailing n) := inferInstanceAs (Decidable (_ ∧ _))

def pairChar (leading trailing : Nat) : Char :=
  Char.ofNat (0x10000 + (leading - 0xD800) * 0x400 + (trailing - 0xDC00))

def decodeUnits : List TextUnit → Option (List Char)
  | [] => some []
  | .char c :: units => (decodeUnits units).map (c :: ·)
  | .code n :: units =>
    if IsLeading n then
      match units with
      | .code m :: rest =>
        if IsTrailing m then (decodeUnits rest).map (pairChar n m :: ·) else none
      | _ => none
    else if IsTrailing n then none
    else (decodeUnits units).map (Char.ofNat n :: ·)

def textOf? (units : List TextUnit) : Option String := (decodeUnits units).map String.ofList

def shortEscapes : List (Char × Char) :=
  [('"', '"'), ('\\', '\\'), ('/', '/'), ('b', '\x08'), ('f', '\x0c'), ('n', '\n'), ('r', '\r'),
    ('t', '\t')]

def escapeChar (c : Char) : List Char :=
  match c with
  | '"' => ['\\', '"']
  | '\\' => ['\\', '\\']
  | '\x08' => ['\\', 'b']
  | '\x0c' => ['\\', 'f']
  | '\n' => ['\\', 'n']
  | '\r' => ['\\', 'r']
  | '\t' => ['\\', 't']
  | c => if c.toNat < 0x20 then '\\' :: 'u' :: Text.hexDigits 4 c.toNat else [c]

def quote (s : String) : String := String.ofList ('"' :: (s.toList.flatMap escapeChar ++ ['"']))

end VlanTrunking.Json
