import VlanTrunking.Text.Magnitude

/-! JSON numbers as they are written. Only the form of a numeral and whether a binary64 number can
hold it matter here; no value is computed. -/
namespace VlanTrunking.Json

structure Numeral where
  negative : Bool
  whole : List Char
  fraction : List Char
  exponent : Int
  deriving DecidableEq, Repr

namespace Numeral

def digits (cs : List Char) : Option (List Char × List Char) :=
  let run := cs.takeWhile Char.isDigit
  if run.isEmpty then none else some (run, cs.dropWhile Char.isDigit)

def readFraction : List Char → Option (List Char × List Char)
  | '.' :: cs => digits cs
  | cs => some ([], cs)

def readExponent : List Char → Option Int
  | [] => some 0
  | c :: cs =>
    if c = 'e' ∨ c = 'E' then do
      let (negative, cs) := match cs with
        | '-' :: cs => (true, cs)
        | '+' :: cs => (false, cs)
        | cs => (false, cs)
      let (run, rest) ← digits cs
      if rest.isEmpty then
        let n : Int := Nat.ofDigitChars 10 run 0
        some (if negative then -n else n)
      else none
    else none

def read? (cs : List Char) : Option Numeral := do
  let (negative, cs) := match cs with
    | '-' :: cs => (true, cs)
    | cs => (false, cs)
  let (whole, cs) ← digits cs
  if whole.head? = some '0' ∧ whole.length ≠ 1 then none
  else
    let (fraction, cs) ← readFraction cs
    let exponent ← readExponent cs
    return ⟨negative, whole, fraction, exponent⟩

/-- Whether the numeral stays finite when its leading digits, as many as a 64-bit word holds, are
scaled by a power of ten. -/
def isFinite (n : Numeral) : Bool :=
  let (head, dropped) := Text.absorbDigits 0 n.whole
  let (all, rest) := Text.absorbDigits head n.fraction
  let places : Int := dropped.length - (n.fraction.length - rest.length : Nat)
  Text.finiteStepwise all (places + n.exponent)

end Numeral

end VlanTrunking.Json
