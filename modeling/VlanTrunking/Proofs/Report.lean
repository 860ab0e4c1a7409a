import VlanTrunking.Device.Report

/-! Reports as texts of several lines, read back line by line. -/
namespace VlanTrunking

namespace Text

def lines (s : String) : List String := (s.toList.splitOn '\n').map String.ofList

theorem lines_of_whole {ls : List String} (some_left : ls ≠ [])
    (whole : ∀ line ∈ ls, '\n' ∉ line.toList) : lines ("\n".intercalate ls) = ls := by
  have parts : ("\n".intercalate ls).toList = ['\n'].intercalate (ls.map String.toList) := by
    rw [String.toList_intercalate]
    rfl
  have whole_parts : ∀ cs ∈ ls.map String.toList, '\n' ∉ cs := by
    rw [List.forall_mem_map]
    exact whole
  rw [lines, parts, List.splitOn_intercalate '\n' whole_parts (by simpa using some_left),
    List.map_map]
  simp [Function.comp_def]

theorem lines_intercalate (before : List String) {after : List String} (rest : after ≠ [])
    (whole : ∀ line ∈ before, '\n' ∉ line.toList) :
    lines ("\n".intercalate (before ++ after)) = before ++ lines ("\n".intercalate after) := by
  induction before with
  | nil => rfl
  | cons line before ih =>
    rw [List.forall_mem_cons] at whole
    have more : before ++ after ≠ [] := by simp [rest]
    have first : ("\n".intercalate (line :: (before ++ after))).toList =
        line.toList ++ '\n' :: ("\n".intercalate (before ++ after)).toList := by
      rw [String.intercalate_cons_of_ne_nil more]
      simp
    rw [List.cons_append, lines, first, List.splitOn_append_cons_self_of_not_mem whole.1,
      List.map_cons, String.ofList_toList, List.cons_append, ← ih whole.2, lines]

end Text

namespace Device

theorem lines_statusText (d : Device) :
    Text.lines d.statusText =
      d.statusLines.take 4 ++ Text.lines ("\n".intercalate (d.statusLines.drop 4)) := by
  have rest : d.statusLines.drop 4 ≠ [] := by simp [statusLines]
  have whole : ∀ line ∈ d.statusLines.take 4, '\n' ∉ line.toList := by
    have no_newline := Text.notMem_toDigits (c := '\n') (by decide)
    simp [statusLines, no_newline]
  calc
    _ = Text.lines ("\n".intercalate (d.statusLines.take 4 ++ d.statusLines.drop 4)) := by
      rw [List.take_append_drop, statusText]
    _ = _ := Text.lines_intercalate _ rest whole

end Device

end VlanTrunking
