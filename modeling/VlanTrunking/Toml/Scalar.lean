import VlanTrunking.Text.Magnitude
import VlanTrunking.Toml.Lexis
import VlanTrunking.Toml.Table

/-! Values without parts: strings, booleans, numbers, dates and times. All but strings are runs of
characters that end where no such value can go on, so a run is read as a whole. -/
namespace VlanTrunking.Toml

def spacedDigits? (isDigit : Char → Bool) (cs : List Char) : Option (List Char) :=
  let runs := cs.splitOn '_'
  if runs.all fun run => !run.isEmpty && run.all isDigit then some runs.flatten else none

def wholeDigits? (cs : List Char) : Option (List Char) :=
  (spacedDigits? Char.isDigit cs).filter fun ds => ds.head? ≠ some '0' || ds.length = 1

def splitSign : List Char → Bool × List Char
  | '-' :: cs => (true, cs)
  | '+' :: cs => (false, cs)
  | cs => (false, cs)

def digitsInBase (base : Nat) (cs : List Char) : Option Nat := do
  let isDigit (c : Char) : Bool := match Text.hexDigitValue? c with
    | some d => d < base
    | none => false
  let ds ← spacedDigits? isDigit cs
  return ds.foldl (fun n c => base * n + (Text.hexDigitValue? c).getD 0) 0

/-- Integers fit a signed 64-bit word. Only decimal ones have a sign. -/
def integer? (cs : List Char) : Option Int := do
  let n ← match cs with
    | '0' :: 'x' :: cs => (digitsInBase 16 cs).map fun n => (n : Int)
    | '0' :: 'o' :: cs => (digitsInBase 8 cs).map fun n => (n : Int)
    | '0' :: 'b' :: cs => (digitsInBase 2 cs).map fun n => (n : Int)
    | cs =>
      let (negative, cs) := splitSign cs
      (wholeDigits? cs).map fun ds =>
        let n : Int := Nat.ofDigitChars 10 ds 0
        if negative then -n else n
  if -9223372036854775808 ≤ n ∧ n ≤ 9223372036854775807 then some n else none

def exponent? (cs : List Char) : Option Int := do
  let (negative, cs) := splitSign cs
  let n : Int := Nat.ofDigitChars 10 (← spacedDigits? Char.isDigit cs) 0
  return if negative then -n else n

def isExponentLetter (c : Char) : Bool := c = 'e' || c = 'E'

/-- A float has a point or an exponent, or it is one of the named ones. A numeral that would round
to positive infinity is refused. -/
def isFloat (cs : List Char) : Bool :=
  let (negative, body) := splitSign cs
  if body = ['i', 'n', 'f'] || body = ['n', 'a', 'n'] then true
  else
    let mantissa := body.takeWhile (!isExponentLetter ·)
    let exponent := match body.dropWhile (!isExponentLetter ·) with
      | [] => some 0
      | _ :: cs => exponent? cs
    let fraction := match mantissa.dropWhile (· ≠ '.') with
      | [] => if mantissa.length = body.length then none else some []
      | _ :: cs => spacedDigits? Char.isDigit cs
    match wholeDigits? (mantissa.takeWhile (· ≠ '.')), fraction, exponent with
    | some whole, some fraction, some exponent =>
      negative || Text.finiteExact (Nat.ofDigitChars 10 (whole ++ fraction) 0)
        (exponent - fraction.length)
    | _, _, _ => false

def twoDigits (low high : Nat) (tens ones : Char) : Option Nat :=
  if tens.isDigit && ones.isDigit then
    some (Nat.ofDigitChars 10 [tens, ones] 0) |>.filter fun n => low ≤ n && n ≤ high
  else none

def isLeapYear (year : Nat) : Bool := year % 4 = 0 && (year % 100 ≠ 0 || year % 400 = 0)

def daysInMonth (year month : Nat) : Nat :=
  if month = 2 then (if isLeapYear year then 29 else 28)
  else if [4, 6, 9, 11].contains month then 30
  else 31

def isDate : List Char → Bool
  | [y₁, y₂, y₃, y₄, '-', m₁, m₂, '-', d₁, d₂] =>
    let year := [y₁, y₂, y₃, y₄]
    match twoDigits 1 12 m₁ m₂, twoDigits 1 31 d₁ d₂ with
    | some month, some day =>
      year.all Char.isDigit && day ≤ daysInMonth (Nat.ofDigitChars 10 year 0) month
    | _, _ => false
  | _ => false

def clock? : List Char → Option (List Char)
  | h₁ :: h₂ :: ':' :: m₁ :: m₂ :: ':' :: s₁ :: s₂ :: rest => do
    let _ ← twoDigits 0 23 h₁ h₂
    let _ ← twoDigits 0 59 m₁ m₂
    let _ ← twoDigits 0 60 s₁ s₂
    return rest
  | _ => none

def afterFraction? : List Char → Option (List Char)
  | '.' :: cs => if (cs.takeWhile Char.isDigit).isEmpty then none
    else some (cs.dropWhile Char.isDigit)
  | cs => some cs

def isTime (cs : List Char) : Bool := (clock? cs).bind afterFraction? == some []

def isOffset : List Char → Bool
  | [] | ['Z'] | ['z'] => true
  | [sign, h₁, h₂, ':', m₁, m₂] =>
    (sign = '+' || sign = '-') && (twoDigits 0 23 h₁ h₂).isSome && (twoDigits 0 59 m₁ m₂).isSome
  | _ => false

def isZonedTime (cs : List Char) : Bool :=
  match (clock? cs).bind afterFraction? with
  | some rest => isOffset rest
  | none => false

def isMoment (cs : List Char) : Bool :=
  isDate cs || isTime cs ||
    isDate (cs.take 10) && ((cs[10]? = some 'T' || cs[10]? = some 't') && isZonedTime (cs.drop 11))

def ofRun? (cs : List Char) : Option Item :=
  if cs = "true".toList then some (.boolean true)
  else if cs = "false".toList then some (.boolean false)
  else if isMoment cs then some (.moment cs)
  else if isFloat cs then some (.float cs)
  else (integer? cs).map .integer

def isRunChar (c : Char) : Bool := c.isAlphanum || ['_', '+', '-', '.', ':'].contains c

/-- Reads a value without parts. A date may be followed by a time one space further on. -/
def scalar? (cs : List Char) : Option (Item × List Char) :=
  if cs.head? = some '"' || cs.head? = some '\'' then
    (string? cs).map fun (s, rest) => (.string (String.ofList s), rest)
  else
    let run := cs.takeWhile isRunChar
    let rest := cs.dropWhile isRunChar
    let next := rest.tail.takeWhile isRunChar
    if isDate run && rest.head? = some ' ' && !next.isEmpty then
      if isZonedTime next then
        some (.moment (run ++ ' ' :: next), rest.tail.dropWhile isRunChar)
      else none
    else (ofRun? run).map (·, rest)

theorem ofRun?_nil : ofRun? [] = none := by decide

theorem length_of_scalar? {cs rest : List Char} {v : Item} (h : scalar? cs = some (v, rest)) :
    rest.length < cs.length := by
  simp only [scalar?] at h
  split at h
  · obtain ⟨⟨str, rest'⟩, hs, heq⟩ := Option.map_eq_some_iff.mp h
    cases heq
    exact length_of_string? hs
  · have hrun {r : List Char} (hne : cs.takeWhile isRunChar ≠ [])
        (hr : r.length ≤ (cs.dropWhile isRunChar).length) : r.length < cs.length :=
      Nat.lt_of_le_of_lt hr (length_dropWhile_lt hne)
    split at h
    · next hdate =>
      split at h
      · cases h
        refine hrun (fun hnil => ?_) ?_
        · rw [hnil] at hdate
          simp [isDate] at hdate
        · exact Nat.le_trans (List.dropWhile_sublist _).length_le (List.tail_sublist _).length_le
      · cases h
    · obtain ⟨v', hv, heq⟩ := Option.map_eq_some_iff.mp h
      cases heq
      refine hrun (fun hnil => ?_) (Nat.le_refl _)
      rw [hnil, ofRun?_nil] at hv
      cases hv

end VlanTrunking.Toml
