/-! Decimal numerals and fixed-width columns. Numerals are read at any length: the value is a
natural number, so a caller that wants a range compares the value itself and nothing wraps. -/
namespace VlanTrunking.Text

def readNat (cs : List Char) : Option Nat :=
  if !cs.isEmpty && cs.all Char.isDigit then some (Nat.ofDigitChars 10 cs 0) else none

/-- A numeral that may carry one plus sign. -/
def readUnsigned : List Char → Option Nat
  | '+' :: cs => readNat cs
  | cs => readNat cs

def readSigned : List Char → Option Int
  | '-' :: cs => (readNat cs).map fun n => -(n : Int)
  | cs => (readUnsigned cs).map fun n => (n : Int)

/-- Fills a text on the right up to a width counted in characters; longer texts are kept whole. -/
def padRight (width : Nat) (s : String) : String :=
  s ++ String.ofList (List.replicate (width - s.length) ' ')

def zeroPadded (width n : Nat) : String :=
  String.ofList (List.replicate (width - n.repr.length) '0') ++ n.repr

theorem isDigit_toDigits (n : Nat) : ∀ c ∈ Nat.toDigits 10 n, c.isDigit = true :=
  fun _ => Nat.isDigit_of_mem_toDigits (by decide) (by decide)

theorem readNat_toDigits (n : Nat) : readNat (Nat.toDigits 10 n) = some n := by
  have hall : (Nat.toDigits 10 n).all Char.isDigit = true :=
    List.all_eq_true.mpr (isDigit_toDigits n)
  simp [readNat, hall, Nat.ofDigitChars_ten_toDigits]

theorem notMem_toDigits {c : Char} (h : c.isDigit = false) (n : Nat) : c ∉ Nat.toDigits 10 n := by
  intro listed
  have digit := isDigit_toDigits n c listed
  rw [h] at digit
  cases digit

theorem readUnsigned_toDigits (n : Nat) : readUnsigned (Nat.toDigits 10 n) = some n := by
  have no_plus := notMem_toDigits (c := '+') (by decide) n
  have read := readNat_toDigits n
  unfold readUnsigned
  split
  · next digits =>
    simp [digits] at no_plus
  · exact read

theorem repr_injective : Function.Injective Nat.repr :=
  Function.LeftInverse.injective (g := fun s => Nat.ofDigitChars 10 s.toList 0) fun n => by
    simp [Nat.ofDigitChars_ten_toDigits]

theorem toDigits_head?_ne_zero {n : Nat} (positive : 0 < n) :
    (Nat.toDigits 10 n).head? ≠ some '0' := by
  induction n using Nat.strongRecOn with
  | ind n ih =>
    rw [Nat.toDigits_eq_if (by decide)]
    split
    · next small =>
      have other : ∀ d < 10, 0 < d → Nat.digitChar d ≠ '0' := by decide
      simpa using other n small positive
    · next large =>
      have higher := ih (n / 10) (Nat.div_lt_self positive (by decide)) (by omega)
      rwa [List.head?_append, Option.or_of_isSome (by simp [Nat.toDigits_ne_nil])]

theorem toDigits_trimmed (n : Nat) :
    (Nat.toDigits 10 n).head? ≠ some '0' ∨ (Nat.toDigits 10 n).length = 1 := by
  cases n with
  | zero => exact .inr rfl
  | succ n => exact .inl (toDigits_head?_ne_zero (Nat.succ_pos n))

end VlanTrunking.Text
