/-! Hexadecimal numerals. Both letter cases are read; only lower case is written. -/
namespace VlanTrunking.Text

def hexDigitValue? (c : Char) : Option Nat :=
  if c.isDigit then some (c.toNat - '0'.toNat)
  else if 'a' ≤ c ∧ c ≤ 'f' then some (c.toNat - 'a'.toNat + 10)
  else if 'A' ≤ c ∧ c ≤ 'F' then some (c.toNat - 'A'.toNat + 10)
  else none

def readHexDigits (cs : List Char) : Option Nat :=
  cs.foldlM (fun n c => (hexDigitValue? c).map fun d => 16 * n + d) 0

/-- A number in exactly `width` hexadecimal digits; digits above the width are dropped. -/
def hexDigits : Nat → Nat → List Char
  | 0, _ => []
  | width + 1, n => hexDigits width (n / 16) ++ [Nat.digitChar (n % 16)]

theorem hexDigitValue_digitChar : ∀ d < 16, hexDigitValue? (Nat.digitChar d) = some d := by
  decide

theorem length_hexDigits (width n : Nat) : (hexDigits width n).length = width := by
  induction width generalizing n with
  | zero => rfl
  | succ width ih => simp [hexDigits, ih]

theorem readHexDigits_hexDigits (width n : Nat) :
    readHexDigits (hexDigits width n) = some (n % Nat.pow 16 width) := by
  induction width generalizing n with
  | zero => simp [hexDigits, readHexDigits, Nat.pow, Nat.mod_one]
  | succ width ih =>
    have last : hexDigitValue? (Nat.digitChar (n % 16)) = some (n % 16) :=
      hexDigitValue_digitChar _ (Nat.mod_lt n (by decide))
    have power : Nat.pow 16 (width + 1) = 16 * Nat.pow 16 width := Nat.mul_comm ..
    have split : n % Nat.pow 16 (width + 1) = 16 * (n / 16 % Nat.pow 16 width) + n % 16 := by
      rw [power, Nat.mod_mul, Nat.add_comm]
    have higher := ih (n / 16)
    rw [readHexDigits] at higher ⊢
    rw [hexDigits, List.foldlM_append, higher, split]
    simp [last]

theorem readHexDigits_toDigits (n : Nat) : readHexDigits (Nat.toDigits 16 n) = some n := by
  induction n using Nat.strongRecOn with
  | ind n ih =>
    rw [Nat.toDigits_eq_if (by decide)]
    split
    · next small => simp [readHexDigits, hexDigitValue_digitChar n small]
    · next large =>
      have higher := ih (n / 16) (Nat.div_lt_self (by omega) (by decide))
      have last := hexDigitValue_digitChar _ (Nat.mod_lt n (show 0 < 16 by decide))
      rw [readHexDigits] at higher ⊢
      rw [List.foldlM_append, higher]
      simp [last, Nat.div_add_mod]

theorem isSome_of_mem {cs : List Char} {n : Nat} (h : readHexDigits cs = some n) {c : Char}
    (listed : c ∈ cs) : (hexDigitValue? c).isSome = true := by
  have folded : ∀ (cs : List Char) (start : Nat),
      cs.foldlM (fun n c => (hexDigitValue? c).map fun d => 16 * n + d) start = some n →
      c ∈ cs → (hexDigitValue? c).isSome = true := by
    intro cs
    induction cs with
    | nil => simp
    | cons d cs ih =>
      intro start read listed
      obtain ⟨value, digit, later⟩ := Option.bind_eq_some_iff.mp read
      rcases List.mem_cons.mp listed with rfl | listed
      · obtain ⟨v, first, -⟩ := Option.map_eq_some_iff.mp digit
        rw [first]
        rfl
      · exact ih value later listed
  exact folded cs 0 h listed

end VlanTrunking.Text
