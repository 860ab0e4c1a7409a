import Mathlib.Logic.Function.Basic
import VlanTrunking.Proofs.Report

/-! Status blocks that can be told apart. A domain has no blanks in it, so it stays on its own line
of the block and is never taken for the text that stands for a missing one. Two blocks are the same
only if they tell the same. -/
namespace VlanTrunking

theorem Mode.name_injective : Function.Injective Mode.name := by
  intro mode other same
  have read := mode.ofName?_name
  rw [same, other.ofName?_name] at read
  exact (Option.some.inj read).symm

namespace Device

section Status

variable {d e : Device}

theorem shownDomain_of_configured (configured : d.domain ≠ "") : d.shownDomain = d.domain :=
  if_neg configured

theorem shownDomain_of_missing (missing : d.domain = "") : d.shownDomain = "not configured" :=
  if_pos missing

theorem shownDomain_ne (plain : ∀ c ∈ d.domain.toList, Text.isBlank c = false)
    (configured : d.domain ≠ "") : d.shownDomain ≠ "not configured" := by
  rw [shownDomain_of_configured configured]
  intro same
  rw [same] at plain
  exact absurd (plain ' ' (by decide)) (by decide)

theorem shownDomain_eq_iff (plain : ∀ c ∈ d.domain.toList, Text.isBlank c = false)
    (plain' : ∀ c ∈ e.domain.toList, Text.isBlank c = false) :
    d.shownDomain = e.shownDomain ↔ d.domain = e.domain := by
  constructor
  · intro same
    by_cases missing : d.domain = ""
    · by_contra other
      have configured : e.domain ≠ "" := fun missing' => other (missing.trans missing'.symm)
      exact shownDomain_ne plain' configured (same.symm.trans (shownDomain_of_missing missing))
    · have configured : e.domain ≠ "" := fun missing' =>
        shownDomain_ne plain missing (same.trans (shownDomain_of_missing missing'))
      rwa [shownDomain_of_configured missing, shownDomain_of_configured configured] at same
  · intro same
    rw [shownDomain, shownDomain, same]

theorem statusLines_eq_iff : d.statusLines = e.statusLines ↔
    d.revision = e.revision ∧ d.vlans.size = e.vlans.size ∧ d.mode = e.mode ∧
      d.shownDomain = e.shownDomain ∧ d.pruning = e.pruning := by
  have pruning : (if d.pruning then "Enabled" else "Disabled") =
      (if e.pruning then "Enabled" else "Disabled") ↔ d.pruning = e.pruning := by
    cases d.pruning <;> cases e.pruning <;> decide
  simp only [statusLines, List.cons.injEq, String.append_right_inj, Text.repr_injective.eq_iff,
    Mode.name_injective.eq_iff, pruning, true_and, and_true]

theorem lines_statusText_of_plain (plain : ∀ c ∈ d.domain.toList, Text.isBlank c = false) :
    Text.lines d.statusText = d.statusLines := by
  have no_newline := Text.notMem_toDigits (c := '\n') (by decide)
  have mode : '\n' ∉ d.mode.name.toList := by cases d.mode <;> decide
  have domain : '\n' ∉ d.shownDomain.toList := by
    unfold shownDomain
    split
    · decide
    · exact fun listed => absurd (plain _ listed) (by decide)
  have pruning : '\n' ∉ (if d.pruning then "Enabled" else "Disabled").toList := by
    cases d.pruning <;> decide
  apply Text.lines_of_whole (by simp [statusLines])
  simp [statusLines, no_newline, mode, domain, pruning]

end Status

end Device

/-- Two status blocks are the same exactly if they tell the same. The block of a switch with a
domain has another domain line than that of any switch without one, and the name of the domain
decides about its own line only. -/
theorem status_block_is_faithful (d e : Device)
    (plain : ∀ c ∈ d.domain.toList, Text.isBlank c = false)
    (plain' : ∀ c ∈ e.domain.toList, Text.isBlank c = false) :
    (d.statusText = e.statusText ↔
      d.revision = e.revision ∧ d.vlans.size = e.vlans.size ∧ d.mode = e.mode ∧
        d.domain = e.domain ∧ d.pruning = e.pruning) ∧
    (d.domain ≠ "" → e.domain = "" →
      (Text.lines d.statusText)[5]? ≠ (Text.lines e.statusText)[5]?) ∧
    (Text.lines d.statusText).length = 7 ∧
    Text.lines { d with domain := e.domain }.statusText =
      (Text.lines d.statusText).set 5 ("VTP Domain Name: " ++ e.shownDomain) := by
  have lines := Device.lines_statusText_of_plain plain
  have lines' := Device.lines_statusText_of_plain plain'
  refine ⟨⟨?told, ?same⟩, ?configured, ?seven, ?others⟩
  case told =>
    intro same
    have same_lines : d.statusLines = e.statusLines := by rw [← lines, ← lines', same]
    rwa [Device.statusLines_eq_iff, Device.shownDomain_eq_iff plain plain'] at same_lines
  case same =>
    intro told
    rw [← Device.shownDomain_eq_iff plain plain', ← Device.statusLines_eq_iff] at told
    rw [Device.statusText, Device.statusText, told]
  case configured =>
    intro configured missing same
    rw [lines, lines'] at same
    have shown : d.shownDomain = e.shownDomain := by simpa [Device.statusLines] using same
    rw [Device.shownDomain_eq_iff plain plain', missing] at shown
    exact configured shown
  case seven =>
    rw [lines]
    rfl
  case others =>
    have lines_moved : Text.lines { d with domain := e.domain }.statusText =
        { d with domain := e.domain }.statusLines := Device.lines_statusText_of_plain plain'
    rw [lines_moved, lines]
    rfl

theorem status_block_is_faithful_lookalike :
    let d := { Device.factory "SW1" with domain := "not_configured", revision := 3 }
    let e := { Device.factory "SW2" with revision := 3 }
    d.statusText ≠ e.statusText ∧
      (Text.lines d.statusText)[5]? ≠ (Text.lines e.statusText)[5]? ∧
      Text.lines { d with domain := e.domain }.statusText = Text.lines e.statusText := by
  intro d e
  have solid : d.domain.toList.all (!Text.isBlank ·) = true := by decide
  have plain : ∀ c ∈ d.domain.toList, Text.isBlank c = false := by
    simpa using List.all_eq_true.mp solid
  have plain' : ∀ c ∈ e.domain.toList, Text.isBlank c = false := List.forall_mem_nil _
  obtain ⟨told, configured, -, moved⟩ := status_block_is_faithful d e plain plain'
  obtain ⟨same, -⟩ := status_block_is_faithful { d with domain := e.domain } e plain' plain'
  have other : d.domain ≠ e.domain := by decide
  refine ⟨?_, configured (by decide) rfl, ?_⟩
  · intro same
    exact other (told.mp same).2.2.2.1
  · rw [same.mpr ⟨rfl, rfl, rfl, rfl, rfl⟩]

end VlanTrunking
