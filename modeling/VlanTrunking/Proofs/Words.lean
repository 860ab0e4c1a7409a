import Mathlib.Data.List.DropRight
import VlanTrunking.Text.Blank

/-! The words of a text and its blanks. A blank parts the words before it from those after it, so
blanks at the ends of a text make no difference to its words, and neither does it matter whether
letters are brought to lower case in the text or in its words. -/
namespace VlanTrunking.Text

def Solid (w : List Char) : Prop := w ≠ [] ∧ ∀ c ∈ w, isBlank c = false

instance (w : List Char) : Decidable (Solid w) :=
  decidable_of_iff (w ≠ [] ∧ w.all (!isBlank ·) = true) (by simp [Solid])

theorem wordsOf_blank (cs : List Char) {b : Char} (blank : isBlank b = true) (rest : List Char) :
    wordsOf (cs ++ b :: rest) = wordsOf cs ++ wordsOf rest := by
  rw [wordsOf, List.splitOnP_append_cons cs rest blank, List.filter_append]
  rfl

theorem wordsOf_cons_blank {b : Char} (blank : isBlank b = true) (rest : List Char) :
    wordsOf (b :: rest) = wordsOf rest := wordsOf_blank [] blank rest

theorem wordsOf_solid {w : List Char} (solid : Solid w) : wordsOf w = [w] := by
  rw [wordsOf, List.splitOnP_eq_singleton solid.2]
  simpa using solid.1

theorem wordsOf_blanks_append {gap : List Char} (blank : ∀ b ∈ gap, isBlank b = true)
    (rest : List Char) : wordsOf (gap ++ rest) = wordsOf rest := by
  induction gap with
  | nil => rfl
  | cons b gap ih =>
    rw [List.forall_mem_cons] at blank
    rw [List.cons_append, wordsOf_cons_blank blank.1, ih blank.2]

theorem wordsOf_append_blanks {gap : List Char} (blank : ∀ b ∈ gap, isBlank b = true)
    (cs : List Char) : wordsOf (cs ++ gap) = wordsOf cs := by
  cases gap with
  | nil => rw [List.append_nil]
  | cons b gap =>
    rw [List.forall_mem_cons] at blank
    have none : wordsOf (gap ++ []) = [] := wordsOf_blanks_append blank.2 []
    rw [List.append_nil] at none
    rw [wordsOf_blank cs blank.1, none, List.append_nil]

theorem wordsOf_solid_append {w : List Char} (solid : Solid w) (rest : List Char) :
    wordsOf (w ++ rest) =
      (w ++ rest.takeWhile (!isBlank ·)) :: wordsOf (rest.dropWhile (!isBlank ·)) := by
  have longer : Solid (w ++ rest.takeWhile (!isBlank ·)) := by
    refine ⟨by simp [solid.1], ?_⟩
    intro c listed
    rcases List.mem_append.mp listed with first | more
    · exact solid.2 c first
    · simpa using List.mem_takeWhile_imp more
  have parts : w ++ rest =
      (w ++ rest.takeWhile (!isBlank ·)) ++ rest.dropWhile (!isBlank ·) := by
    rw [List.append_assoc, List.takeWhile_append_dropWhile]
  rw [parts]
  cases left : rest.dropWhile (!isBlank ·) with
  | nil => rw [List.append_nil, wordsOf_solid longer]; rfl
  | cons b after =>
    have some_left : rest.dropWhile (!isBlank ·) ≠ [] := by simp [left]
    have blank : isBlank b = true := by
      simpa [left] using List.head_dropWhile_not (!isBlank ·) some_left
    rw [wordsOf_blank _ blank, wordsOf_solid longer, wordsOf_cons_blank blank]
    rfl

section Beginnings

theorem words_parted {gap : String} (blank : gap.toList.all isBlank = true) (some_left : gap ≠ "")
    (s rest : String) : words (s ++ gap ++ rest) = words s ++ words rest := by
  cases parts : gap.toList with
  | nil => exact absurd (String.toList_eq_nil_iff.mp parts) some_left
  | cons b more =>
    rw [parts, List.all_eq_true, List.forall_mem_cons] at blank
    rw [words, String.toList_append, String.toList_append, parts, List.append_assoc,
      List.cons_append, wordsOf_blank s.toList blank.1, wordsOf_blanks_append blank.2,
      List.map_append, words, words]

theorem words_append_gap {w gap : String} (solid : Solid w.toList)
    (blank : gap.toList.all isBlank = true) (some_left : gap ≠ "") (rest : String) :
    words (w ++ gap ++ rest) = w :: words rest := by
  have one : words w = [w] := by simp [words, wordsOf_solid solid]
  rw [words_parted blank some_left, one, List.singleton_append]

theorem words_append_space {w : String} (solid : Solid w.toList) (rest : String) :
    words (w ++ " " ++ rest) = w :: words rest :=
  words_append_gap solid (by decide) (by decide) rest

theorem words_append {w : String} (solid : Solid w.toList) (rest : String) :
    ∃ tail after, words (w ++ rest) = (w ++ tail) :: after := by
  have parts : (w ++ rest).toList = w.toList ++ rest.toList := by simp
  refine ⟨String.ofList (rest.toList.takeWhile (!isBlank ·)),
    (wordsOf (rest.toList.dropWhile (!isBlank ·))).map String.ofList, ?_⟩
  rw [words, parts, wordsOf_solid_append solid]
  simp

end Beginnings

section Trimming

theorem trimBlanks_eq_rdropWhile (cs : List Char) :
    trimBlanks cs = (cs.dropWhile isBlank).rdropWhile isBlank := rfl

theorem wordsOf_trimBlanks (cs : List Char) : wordsOf (trimBlanks cs) = wordsOf cs := by
  have right : wordsOf (trimBlanks cs) = wordsOf (cs.dropWhile isBlank) := by
    rw [trimBlanks_eq_rdropWhile]
    conv_rhs => rw [← List.rdropWhile_append_rtakeWhile (p := isBlank) (l := cs.dropWhile isBlank)]
    exact (wordsOf_append_blanks (fun _ => List.mem_rtakeWhile_imp) _).symm
  have left : wordsOf (cs.dropWhile isBlank) = wordsOf cs := by
    conv_rhs => rw [← List.takeWhile_append_dropWhile (p := isBlank) (l := cs)]
    exact (wordsOf_blanks_append (fun _ => List.mem_takeWhile_imp) _).symm
  rw [right, left]

theorem dropWhile_trimBlanks (cs : List Char) :
    (trimBlanks cs).dropWhile isBlank = trimBlanks cs := by
  obtain ⟨after, whole⟩ := List.rdropWhile_prefix isBlank (cs.dropWhile isBlank)
  rw [← trimBlanks_eq_rdropWhile] at whole
  cases trimmed : trimBlanks cs with
  | nil => rfl
  | cons c rest =>
    rw [trimmed] at whole
    have first : isBlank c = false := by
      have some_left : cs.dropWhile isBlank ≠ [] := by simp [← whole]
      simpa [← whole] using List.head_dropWhile_not isBlank some_left
    simp [first]

theorem trimBlanks_trimBlanks (cs : List Char) : trimBlanks (trimBlanks cs) = trimBlanks cs := by
  rw [trimBlanks_eq_rdropWhile (trimBlanks cs), dropWhile_trimBlanks, trimBlanks_eq_rdropWhile,
    List.rdropWhile_idempotent]

theorem trimBlanks_of_solid {cs : List Char} (solid : ∀ c ∈ cs, isBlank c = false) :
    trimBlanks cs = cs := by
  have left : cs.dropWhile isBlank = cs := by
    cases cs with
    | nil => rfl
    | cons c rest => simp [solid c (by simp)]
  have right : cs.rdropWhile isBlank = cs := by
    rw [List.rdropWhile_eq_self_iff]
    intro some_left
    simp [solid _ (List.getLast_mem some_left)]
  rw [trimBlanks_eq_rdropWhile, left, right]

theorem words_trim (s : String) : words (trim s) = words s := by
  rw [words, trim, String.toList_ofList, wordsOf_trimBlanks, words]

theorem trim_trim (s : String) : trim (trim s) = trim s := by
  rw [trim, trim, String.toList_ofList, trimBlanks_trimBlanks]

end Trimming

section Lowering

theorem isBlank_toLower (c : Char) : isBlank c.toLower = isBlank c := by
  by_cases upper : 'A'.val ≤ c.val ∧ c.val ≤ 'Z'.val
  · have letters : ∀ n < 91, 65 ≤ n → isBlank (Char.ofNat n).toLower = isBlank (Char.ofNat n) := by
      decide
    have low : 65 ≤ c.toNat := upper.1
    have high : c.toNat ≤ 90 := upper.2
    simpa only [Char.ofNat_toNat] using letters c.toNat (by omega) low
  · have same : c.toLower = c := dif_neg upper
    rw [same]

theorem splitOnP_map {f : Char → Char} {p : Char → Bool} (same : ∀ c, p (f c) = p c)
    (cs : List Char) : (cs.map f).splitOnP p = (cs.splitOnP p).map (·.map f) := by
  induction cs with
  | nil => rfl
  | cons c cs ih =>
    rw [List.map_cons, List.splitOnP_cons_eq_if_modifyHead, List.splitOnP_cons_eq_if_modifyHead,
      same, ih]
    split
    · rfl
    · cases cs.splitOnP p <;> rfl

theorem wordsOf_map_toLower (cs : List Char) :
    wordsOf (cs.map Char.toLower) = (wordsOf cs).map (·.map Char.toLower) := by
  rw [wordsOf, splitOnP_map isBlank_toLower, List.filter_map, wordsOf]
  congr 2
  funext w
  simp

theorem words_lower (s : String) : words (lower s) = (words s).map lower := by
  rw [words, lower, String.toList_ofList, wordsOf_map_toLower, words, List.map_map, List.map_map]
  congr 1
  funext w
  simp [lower]

theorem lower_append (s t : String) : lower (s ++ t) = lower s ++ lower t := by
  simp [lower]

theorem unwords_cons {ws : List String} (some_left : ws ≠ []) (w : String) :
    unwords (w :: ws) = w ++ " " ++ unwords ws := by
  rw [unwords, String.intercalate_cons_of_ne_nil some_left, unwords]

theorem lower_unwords (ws : List String) : lower (unwords ws) = unwords (ws.map lower) := by
  induction ws with
  | nil => rfl
  | cons w ws ih =>
    cases ws with
    | nil => simp [unwords]
    | cons v ws =>
      have space : lower " " = " " := rfl
      have some_left : (v :: ws).map lower ≠ [] := by simp
      rw [unwords_cons (by simp), lower_append, lower_append, ih, space,
        ← unwords_cons some_left, List.map_cons (l := v :: ws)]

end Lowering

end VlanTrunking.Text
