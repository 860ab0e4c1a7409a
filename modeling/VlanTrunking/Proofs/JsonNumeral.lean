import Mathlib.Data.List.TakeWhile
import VlanTrunking.Json.Token

/-! The numerals of JSON (RFC 8259), told apart from their reader: a sign if negative, a whole part
without needless zeros, and the fraction and the exponent if they are given. The reader accepts
exactly these and takes them apart into just these parts. -/
namespace VlanTrunking

namespace Json

def Digits (cs : List Char) : Prop := cs ≠ [] ∧ ∀ c ∈ cs, c.isDigit = true

inductive FractionText : List Char → List Char → Prop
  | missing : FractionText [] []
  | given {ds : List Char} : Digits ds → FractionText ds ('.' :: ds)

inductive SignText : Bool → List Char → Prop
  | missing : SignText false []
  | plus : SignText false ['+']
  | minus : SignText true ['-']

inductive ExponentText : Int → List Char → Prop
  | missing : ExponentText 0 []
  | given {letter : Char} {negative : Bool} {sign ds : List Char} :
      letter = 'e' ∨ letter = 'E' → SignText negative sign → Digits ds →
      ExponentText
        (if negative then -(Nat.ofDigitChars 10 ds 0 : Int) else Nat.ofDigitChars 10 ds 0)
        (letter :: (sign ++ ds))

/-- How a number may be written. -/
inductive NumeralText : Numeral → List Char → Prop
  | of {negative : Bool} {whole fraction : List Char} {exponent : Int}
      {minus fractionText exponentText : List Char} :
      (negative = true ∧ minus = ['-'] ∨ negative = false ∧ minus = []) → Digits whole →
      (whole.head? = some '0' → whole.length = 1) → FractionText fraction fractionText →
      ExponentText exponent exponentText →
      NumeralText ⟨negative, whole, fraction, exponent⟩
        (minus ++ (whole ++ (fractionText ++ exponentText)))

theorem isNumeralChar_of_isDigit {c : Char} (digit : c.isDigit = true) :
    isNumeralChar c = true := by
  simp [isNumeralChar, digit]

theorem FractionText.chars {ds cs : List Char} (h : FractionText ds cs) :
    ∀ c ∈ cs, isNumeralChar c = true := by
  cases h with
  | missing => simp
  | given given =>
    exact List.forall_mem_cons.mpr
      ⟨rfl, fun c listed => isNumeralChar_of_isDigit (given.2 c listed)⟩

theorem ExponentText.chars {e : Int} {cs : List Char} (h : ExponentText e cs) :
    ∀ c ∈ cs, isNumeralChar c = true := by
  cases h with
  | missing => simp
  | given letter sign given =>
    have first : ∀ c, c = 'e' ∨ c = 'E' → isNumeralChar c = true := by
      rintro c (rfl | rfl) <;> rfl
    refine List.forall_mem_cons.mpr ⟨first _ letter, List.forall_mem_append.mpr ⟨?_, ?_⟩⟩
    · cases sign <;> simp [isNumeralChar]
    · exact fun c listed => isNumeralChar_of_isDigit (given.2 c listed)

theorem NumeralText.chars {n : Numeral} {cs : List Char} (h : NumeralText n cs) :
    ∃ c rest, cs = c :: rest ∧ (c = '-' ∨ c.isDigit = true) ∧
      ∀ d ∈ rest, isNumeralChar d = true := by
  cases h with
  | of sign given single fraction exponent =>
    obtain ⟨d, more, rfl⟩ := List.exists_cons_of_ne_nil given.1
    obtain ⟨digit, digits⟩ := List.forall_mem_cons.mp given.2
    have tail : ∀ c ∈ more ++ (_ ++ _), isNumeralChar c = true :=
      List.forall_mem_append.mpr ⟨fun c listed => isNumeralChar_of_isDigit (digits c listed),
        List.forall_mem_append.mpr ⟨fraction.chars, exponent.chars⟩⟩
    rcases sign with ⟨rfl, rfl⟩ | ⟨rfl, rfl⟩
    · exact ⟨'-', _, rfl, .inl rfl,
        List.forall_mem_cons.mpr ⟨isNumeralChar_of_isDigit digit, tail⟩⟩
    · exact ⟨d, _, rfl, .inr digit, tail⟩

theorem ExponentText.begins {e : Int} {cs : List Char} (h : ExponentText e cs) :
    ∀ c ∈ cs.head?, c = 'e' ∨ c = 'E' := by
  cases h with
  | missing => simp
  | given letter => simpa using letter

namespace Numeral

variable {cs run rest : List Char}

theorem digits_append (digits_run : Digits run) (ends : ∀ c ∈ rest.head?, c.isDigit = false) :
    digits (run ++ rest) = some (run, rest) := by
  have stops : rest.takeWhile Char.isDigit = [] ∧ rest.dropWhile Char.isDigit = rest := by
    cases rest with
    | nil => exact ⟨rfl, rfl⟩
    | cons c rest => simp [ends c rfl]
  rw [digits, List.takeWhile_append_of_pos digits_run.2, List.dropWhile_append_of_pos digits_run.2,
    stops.1, stops.2, List.append_nil]
  simp [digits_run.1]

theorem of_digits (h : digits cs = some (run, rest)) : Digits run ∧ cs = run ++ rest := by
  unfold digits at h
  dsimp only at h
  split at h
  · cases h
  · next some_left =>
    cases h
    refine ⟨⟨by simpa using some_left, fun c listed => ?_⟩, List.takeWhile_append_dropWhile.symm⟩
    exact List.mem_takeWhile_imp listed

theorem of_readFraction {fraction : List Char} (h : readFraction cs = some (fraction, rest)) :
    ∃ text, FractionText fraction text ∧ cs = text ++ rest := by
  unfold readFraction at h
  split at h
  · obtain ⟨given, rfl⟩ := of_digits h
    exact ⟨_, .given given, rfl⟩
  · cases h
    exact ⟨[], .missing, rfl⟩

theorem of_readExponent {exponent : Int} (h : readExponent cs = some exponent) :
    ExponentText exponent cs := by
  unfold readExponent at h
  split at h
  · cases h
    exact .missing
  · next letter cs =>
    split at h
    · next is_letter =>
      simp only [Option.bind_eq_bind, Option.bind_eq_some_iff, Prod.exists] at h
      obtain ⟨run, rest, read, h⟩ := h
      split at h
      · next nothing_left =>
        cases h
        obtain ⟨given, parts⟩ := of_digits read
        rw [List.isEmpty_iff.mp nothing_left, List.append_nil] at parts
        split at parts
        · subst parts
          exact .given is_letter .minus given
        · subst parts
          exact .given is_letter .plus given
        · subst parts
          exact .given is_letter .missing given
      · cases h
    · cases h

theorem of_read? {n : Numeral} (h : read? cs = some n) : NumeralText n cs := by
  unfold read? at h
  simp only [Option.bind_eq_bind, Option.bind_eq_some_iff, Prod.exists] at h
  obtain ⟨whole, after, read_whole, h⟩ := h
  split at h
  · cases h
  · next trimmed =>
    simp only [Option.bind_eq_some_iff, Prod.exists] at h
    obtain ⟨fraction, after', read_fraction, exponent, read_exponent, h⟩ := h
    cases h
    obtain ⟨given, parts⟩ := of_digits read_whole
    obtain ⟨text, fraction_text, rfl⟩ := of_readFraction read_fraction
    have exponent_text := of_readExponent read_exponent
    have single : whole.head? = some '0' → whole.length = 1 := fun zero =>
      by_contra fun many => trimmed ⟨zero, many⟩
    split at parts
    · subst parts
      exact .of (.inl ⟨rfl, rfl⟩) given single fraction_text exponent_text
    · subst parts
      exact .of (.inr ⟨rfl, rfl⟩) given single fraction_text exponent_text

section Written

theorem readFraction_append {fraction text exponent : List Char} {e : Int}
    (given : FractionText fraction text) (after : ExponentText e exponent) :
    readFraction (text ++ exponent) = some (fraction, exponent) := by
  have letter := ExponentText.begins after
  cases given with
  | missing =>
    unfold readFraction
    split
    · next point =>
      rw [List.nil_append] at point
      rw [point] at letter
      exact absurd (letter '.' rfl) (by decide)
    · rfl
  | given given =>
    refine digits_append given fun c first => ?_
    rcases letter c first with rfl | rfl <;> rfl

theorem readExponent_of_text {e : Int} (h : ExponentText e cs) : readExponent cs = some e := by
  cases h with
  | missing => rfl
  | given letter sign given =>
    next ds =>
    have read : digits ds = some (ds, []) := by
      have whole : digits (ds ++ []) = some (ds, []) := digits_append given (by simp)
      rwa [List.append_nil] at whole
    unfold readExponent
    dsimp only
    rw [if_pos letter]
    cases sign with
    | missing =>
      have digit := given.2
      rw [List.nil_append]
      split
      · exact absurd (digit '-' (by simp)) (by decide)
      · exact absurd (digit '+' (by simp)) (by decide)
      · rw [read]
        rfl
    | plus =>
      change (digits ds >>= _) = _
      rw [read]
      rfl
    | minus =>
      change (digits ds >>= _) = _
      rw [read]
      rfl

theorem read?_of_text {n : Numeral} (h : NumeralText n cs) : read? cs = some n := by
  cases h with
  | of sign given single fraction exponent =>
    next negative whole fraction_digits e minus fraction_text exponent_text =>
    have ends : ∀ c ∈ (fraction_text ++ exponent_text).head?, c.isDigit = false := by
      have letter := exponent.begins
      cases fraction with
      | missing =>
        intro c first
        rcases letter c first with rfl | rfl <;> rfl
      | given =>
        rintro c ⟨⟩
        rfl
    have trimmed : ¬(whole.head? = some '0' ∧ whole.length ≠ 1) := fun needless =>
      needless.2 (single needless.1)
    have read := digits_append given ends
    unfold read?
    split
    next sign_read rest signed =>
    obtain ⟨rfl, rfl⟩ :
        sign_read = negative ∧ rest = whole ++ (fraction_text ++ exponent_text) := by
      rcases sign with ⟨rfl, rfl⟩ | ⟨rfl, rfl⟩
      · cases signed
        exact ⟨rfl, rfl⟩
      · split at signed
        · next minus =>
          obtain ⟨d, more, rfl⟩ := List.exists_cons_of_ne_nil given.1
          have digit := given.2 d (by simp)
          cases (List.cons.inj minus).1
          cases digit
        · cases signed
          exact ⟨rfl, rfl⟩
    rw [read, Option.bind_eq_bind, Option.bind_some]
    dsimp only
    rw [if_neg trimmed, readFraction_append fraction exponent]
    simp [readExponent_of_text exponent]

end Written

theorem read?_eq_some_iff {n : Numeral} : read? cs = some n ↔ NumeralText n cs :=
  ⟨of_read?, read?_of_text⟩

end Numeral

end Json

end VlanTrunking
