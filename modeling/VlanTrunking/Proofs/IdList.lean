import Mathlib.Data.List.Forall2
import Mathlib.Data.List.Sort
import VlanTrunking.Proofs.Words
import VlanTrunking.Vlan.IdList

/-! Lists of VLAN ids as they come out of a text: the ids that the parts of the text cover, in
ascending order, each once, and all of them assignable. The text that is written for such a list is
read as the same list again. -/
namespace VlanTrunking

structure IdSpan.Proper (span : IdSpan) : Prop where
  first : VlanId.Assignable span.first
  last : VlanId.Assignable span.last
  ordered : span.first ≤ span.last

theorem forall₂_of_mapM {α β : Type} {f : α → Option β} {l : List α} {l' : List β}
    (h : l.mapM f = some l') : List.Forall₂ (fun a b => f a = some b) l l' := by
  induction l generalizing l' with
  | nil =>
    obtain rfl : l' = [] := by simpa using h.symm
    exact .nil
  | cons a l ih =>
    simp only [List.mapM_cons, Option.bind_eq_bind, Option.bind_eq_some_iff, pure] at h
    obtain ⟨b, read, rest, reads, h⟩ := h
    cases h
    exact .cons read (ih reads)

namespace IdList

/-- Ids as a text gives them. -/
structure Canonical (ids : List VlanId) : Prop where
  nonempty : ids ≠ []
  ascending : ids.Pairwise (· < ·)
  assignable : ∀ id ∈ ids, VlanId.Assignable id

theorem assignable_of_readId {cs : List Char} {id : VlanId} (h : readId cs = some id) :
    VlanId.Assignable id := by
  simpa using (Option.filter_eq_some_iff.mp h).2

theorem proper_of_readSpan {cs : List Char} {span : IdSpan} (h : readSpan cs = some span) :
    span.Proper := by
  unfold readSpan at h
  dsimp only at h
  split at h
  · obtain ⟨id, read, rfl⟩ := Option.map_eq_some_iff.mp h
    exact ⟨assignable_of_readId read, assignable_of_readId read, Nat.le_refl id⟩
  · simp only [Option.bind_eq_bind, Option.bind_eq_some_iff] at h
    obtain ⟨first, read, last, read', h⟩ := h
    split at h
    · next ordered =>
      cases h
      exact ⟨assignable_of_readId read, assignable_of_readId read', ordered⟩
    · cases h

theorem le_bound (spans : List IdSpan) (n : Nat) :
    n ≤ spans.foldl (fun n span => max n (span.last + 1)) n ∧
      ∀ span ∈ spans, span.last < spans.foldl (fun n span => max n (span.last + 1)) n := by
  induction spans generalizing n with
  | nil => simp
  | cons span spans ih =>
    obtain ⟨grows, bounds⟩ := ih (max n (span.last + 1))
    rw [List.foldl_cons, List.forall_mem_cons]
    exact ⟨Nat.le_trans (Nat.le_max_left ..) grows, Nat.le_trans (Nat.le_max_right ..) grows,
      bounds⟩

theorem mem_covered {spans : List IdSpan} {id : VlanId} :
    id ∈ covered spans ↔ ∃ span ∈ spans, span.first ≤ id ∧ id ≤ span.last := by
  have bound := (le_bound spans 0).2
  simp only [covered, List.mem_filter, List.mem_range, List.any_eq_true, IdSpan.covers,
    Bool.and_eq_true, decide_eq_true_eq]
  constructor
  · exact And.right
  · rintro ⟨span, listed, low, high⟩
    exact ⟨Nat.lt_of_le_of_lt high (bound span listed), span, listed, low, high⟩

theorem canonical_covered {spans : List IdSpan} (nonempty : spans ≠ [])
    (proper : ∀ span ∈ spans, span.Proper) : Canonical (covered spans) where
  nonempty := by
    obtain ⟨span, listed⟩ := List.exists_mem_of_ne_nil spans nonempty
    have first : span.first ∈ covered spans :=
      mem_covered.mpr ⟨span, listed, Nat.le_refl _, (proper span listed).ordered⟩
    exact List.ne_nil_of_mem first
  ascending := List.pairwise_lt_range.filter _
  assignable := by
    intro id covers
    obtain ⟨span, listed, low, high⟩ := mem_covered.mp covers
    exact ⟨Nat.le_trans (proper span listed).first.1 low,
      Nat.le_trans high (proper span listed).last.2⟩

theorem canonical_of_read? {text : String} {ids : List VlanId} (h : read? text = some ids) :
    Canonical ids := by
  obtain ⟨spans, reads, rfl⟩ := Option.map_eq_some_iff.mp h
  have each := forall₂_of_mapM reads
  apply canonical_covered
  · rintro rfl
    exact List.splitOn_ne_nil _ _ (List.forall₂_nil_right_iff.mp each)
  · have proper : List.Forall₂ (fun span part => span.Proper ∧ readSpan part = some span) spans _ :=
      .flip (each.imp fun part span read => ⟨proper_of_readSpan read, read⟩)
    exact ((List.forall₂_and_left ..).mp proper).1

section Writing

variable {id : VlanId} {ids : List VlanId}

theorem solid_toDigits (n : Nat) : ∀ c ∈ Nat.toDigits 10 n, Text.isBlank c = false :=
  fun c listed => Text.isBlank_of_isDigit (Text.isDigit_toDigits n c listed)

theorem readId_toDigits (assignable : VlanId.Assignable id) :
    readId (Nat.toDigits 10 id) = some id := by
  rw [readId, Text.trimBlanks_of_solid (solid_toDigits id), Text.readUnsigned_toDigits]
  simp [assignable]

theorem readSpan_toDigits (assignable : VlanId.Assignable id) :
    readSpan (Nat.toDigits 10 id) = some ⟨id, id⟩ := by
  have no_dash : (Nat.toDigits 10 id).dropWhile (· != '-') = [] := by
    rw [List.dropWhile_eq_nil_iff]
    intro c listed
    have other : c ≠ '-' := by
      rintro rfl
      exact Text.notMem_toDigits (by decide) id listed
    simpa using other
  simp only [readSpan, Text.trimBlanks_of_solid (solid_toDigits id), no_dash,
    readId_toDigits assignable, Option.map_some]

theorem splitOn_write (some_left : ids ≠ []) :
    (write ids).toList.splitOn ',' = ids.map (Nat.toDigits 10) := by
  have parts : (write ids).toList = [','].intercalate (ids.map (Nat.toDigits 10)) := by
    rw [write, String.toList_intercalate, List.map_map]
    simp [Function.comp_def]
  have no_comma : ∀ digits ∈ ids.map (Nat.toDigits 10), ',' ∉ digits := by
    rw [List.forall_mem_map]
    exact fun id _ => Text.notMem_toDigits (by decide) id
  rw [parts, List.splitOn_intercalate ',' no_comma (by simpa using some_left)]

theorem mapM_readSpan (assignable : ∀ id ∈ ids, VlanId.Assignable id) :
    (ids.map (Nat.toDigits 10)).mapM readSpan = some (ids.map fun id => ⟨id, id⟩) := by
  induction ids with
  | nil => rfl
  | cons id ids ih =>
    rw [List.forall_mem_cons] at assignable
    rw [List.map_cons, List.mapM_cons, readSpan_toDigits assignable.1, ih assignable.2]
    rfl

theorem covered_singles (canonical : Canonical ids) :
    covered (ids.map fun id => ⟨id, id⟩) = ids := by
  have ascending : (covered (ids.map fun id => ⟨id, id⟩)).Pairwise (· < ·) :=
    List.pairwise_lt_range.filter _
  have same : ∀ id, id ∈ covered (ids.map fun id => ⟨id, id⟩) ↔ id ∈ ids := by
    intro id
    simp only [mem_covered, List.mem_map, exists_exists_and_eq_and]
    constructor
    · rintro ⟨listed, h, low, high⟩
      obtain rfl : listed = id := Nat.le_antisymm low high
      exact h
    · intro h
      exact ⟨id, h, Nat.le_refl id, Nat.le_refl id⟩
  exact ascending.eq_of_mem_iff canonical.ascending same

theorem read?_write (canonical : Canonical ids) : read? (write ids) = some ids := by
  rw [read?, splitOn_write canonical.nonempty, mapM_readSpan canonical.assignable, Option.map_some,
    covered_singles canonical]

end Writing

end IdList

end VlanTrunking
