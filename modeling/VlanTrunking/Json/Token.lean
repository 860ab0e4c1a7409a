import VlanTrunking.Json.Numeral
import VlanTrunking.Json.Text

/-! The tokens of a JSON text. The text is read one character at a time; a word or a numeral ends at
the first character that cannot belong to it, and that character starts what follows. Between tokens
only space, tab, line feed and carriage return are passed over. -/
namespace VlanTrunking.Json

inductive Scalar where
  | null
  | bool (b : Bool)
  | number (n : Numeral)
  | string (units : List TextUnit)
  deriving DecidableEq, Repr

inductive Token where
  | openBrace
  | closeBrace
  | openBracket
  | closeBracket
  | colon
  | comma
  | scalar (s : Scalar)
  deriving DecidableEq, Repr

/-- Where in a token the reader stands. What has been seen of the token is kept latest first. -/
inductive Scan where
  | between
  | word (seen : List Char)
  | numeral (seen : List Char)
  | quoted (seen : List TextUnit)
  | escape (seen : List TextUnit)
  | codeUnit (seen : List TextUnit) (digits : List Char)
  deriving DecidableEq, Repr

/-- The tokens read so far, latest first, and the place in the present one. -/
structure Lexer where
  tokens : List Token := []
  scan : Scan := .between
  deriving DecidableEq, Repr

def isInsignificant (c : Char) : Bool := c = ' ' || c = '\t' || c = '\n' || c = '\r'

def isNumeralChar (c : Char) : Bool :=
  c.isDigit || c = '-' || c = '+' || c = '.' || c = 'e' || c = 'E'

def wordScalar? : List Char → Option Scalar
  | ['n', 'u', 'l', 'l'] => some .null
  | ['t', 'r', 'u', 'e'] => some (.bool true)
  | ['f', 'a', 'l', 's', 'e'] => some (.bool false)
  | _ => none

def punctuation? : Char → Option Token
  | '{' => some .openBrace
  | '}' => some .closeBrace
  | '[' => some .openBracket
  | ']' => some .closeBracket
  | ':' => some .colon
  | ',' => some .comma
  | _ => none

namespace Lexer

def start (tokens : List Token) (c : Char) : Option Lexer :=
  if isInsignificant c then some ⟨tokens, .between⟩
  else if c = '"' then some ⟨tokens, .quoted []⟩
  else if c = '-' || c.isDigit then some ⟨tokens, .numeral [c]⟩
  else if c.isAlpha then some ⟨tokens, .word [c]⟩
  else (punctuation? c).map fun t => ⟨t :: tokens, .between⟩

def endWord (tokens : List Token) (seen : List Char) : Option (List Token) :=
  (wordScalar? seen.reverse).map fun s => .scalar s :: tokens

def endNumeral (tokens : List Token) (seen : List Char) : Option (List Token) :=
  (Numeral.read? seen.reverse).map fun n => .scalar (.number n) :: tokens

def step (l : Lexer) (c : Char) : Option Lexer :=
  match l.scan with
  | .between => start l.tokens c
  | .word seen =>
    if c.isAlpha then some ⟨l.tokens, .word (c :: seen)⟩
    else (endWord l.tokens seen).bind (start · c)
  | .numeral seen =>
    if isNumeralChar c then some ⟨l.tokens, .numeral (c :: seen)⟩
    else (endNumeral l.tokens seen).bind (start · c)
  | .quoted seen =>
    if c = '"' then some ⟨.scalar (.string seen.reverse) :: l.tokens, .between⟩
    else if c = '\\' then some ⟨l.tokens, .escape seen⟩
    else if c.toNat < 0x20 then none
    else some ⟨l.tokens, .quoted (.char c :: seen)⟩
  | .escape seen =>
    if c = 'u' then some ⟨l.tokens, .codeUnit seen []⟩
    else (shortEscapes.lookup c).map fun d => ⟨l.tokens, .quoted (.char d :: seen)⟩
  | .codeUnit seen digits =>
    if (Text.hexDigitValue? c).isNone then none
    else if digits.length < 3 then some ⟨l.tokens, .codeUnit seen (c :: digits)⟩
    else (Text.readHexDigits (c :: digits).reverse).map fun n =>
      ⟨l.tokens, .quoted (.code n :: seen)⟩

def finish (l : Lexer) : Option (List Token) :=
  match l.scan with
  | .between => some l.tokens.reverse
  | .word seen => (endWord l.tokens seen).map List.reverse
  | .numeral seen => (endNumeral l.tokens seen).map List.reverse
  | _ => none

end Lexer

def tokens? (cs : List Char) : Option (List Token) :=
  (cs.foldlM Lexer.step {}).bind Lexer.finish

end VlanTrunking.Json
