/-! When a decimal numeral is too large for a binary64 number. Two readings are told apart: the
exact one, which rounds the value of the numeral once, and the stepwise one, which rounds the
leading digits and the power of ten first and then their product. Only magnitudes at the upper end
are decided here; small numerals become zero and are always in range. -/
namespace VlanTrunking.Text

/-- The least value that rounds to infinity: half a unit in the last place above the greatest finite
number, where the tie goes to the even neighbour. -/
def overflowBound : Nat := Nat.pow 2 1024 - Nat.pow 2 970

def roundTo53Bits (n : Nat) : Nat :=
  let excess := n.log2 + 1 - 53
  let unit := Nat.pow 2 excess
  let kept := n / unit
  let lost := n % unit
  let up := unit < 2 * lost || (2 * lost == unit && kept % 2 == 1)
  (if up then kept + 1 else kept) * unit

def finiteExact (digits : Nat) (exponent : Int) : Bool :=
  let size : Int := digits.repr.length
  if digits = 0 || size + exponent < 300 then true
  else if 310 < size + exponent then false
  else if 0 ≤ exponent then digits * Nat.pow 10 exponent.toNat < overflowBound
  else digits < overflowBound * Nat.pow 10 (-exponent).toNat

/-- Whether `digits · 10 ^ exponent` stays finite when both factors are rounded before they are
multiplied. Powers of ten above the 308th have no rounded value. -/
def finiteStepwise (digits : Nat) (exponent : Int) : Bool :=
  if digits = 0 || exponent < 0 then true
  else if 308 < exponent then false
  else roundTo53Bits digits * roundTo53Bits (Nat.pow 10 exponent.toNat) < overflowBound

def greatestWord : Nat := 18446744073709551615

/-- Appends digits to a number as long as it fits a 64-bit word. The digits from the first one that
does not fit are returned. -/
def absorbDigits (n : Nat) : List Char → Nat × List Char
  | [] => (n, [])
  | c :: cs =>
    let n' := 10 * n + (c.toNat - '0'.toNat)
    if n' ≤ greatestWord then absorbDigits n' cs else (n, c :: cs)

end VlanTrunking.Text
