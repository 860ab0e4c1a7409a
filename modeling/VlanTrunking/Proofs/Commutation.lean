import VlanTrunking.Proofs.Consultation
import VlanTrunking.Proofs.History

/-! When the order of two steps does not matter. Steps of different devices meet in the registry
only, and there each of them concerns no record but that of the domain in which it leaves its
device. They can be exchanged unless one of them writes the record that the other writes or reads.
-/
namespace VlanTrunking

theorem insert_comm {α : Type} (entries : Std.ExtTreeMap String α) {a b : String} (apart : a ≠ b)
    (x y : α) : (entries.insert a x).insert b y = (entries.insert b y).insert a x := by
  apply Std.ExtTreeMap.ext_getElem?
  intro key
  simp only [Std.ExtTreeMap.getElem?_insert, Std.LawfulEqCmp.compare_eq_iff_eq]
  by_cases at_a : a = key
  · subst at_a
    simp [Ne.symm apart]
  · simp [at_a]

def Edit.Disturbs (e f : Edit) : Prop :=
  e.Publishes ∧ (f.Publishes ∨ f.Pulls) ∧ e.device.domain = f.device.domain

namespace Registry

theorem settle_device_undisturbed (r : Registry) {e f : Edit} (free : ¬e.Disturbs f) :
    ((r.settle e).1.settle f).2 = (r.settle f).2 := by
  rw [settle_device, settle_device]
  by_cases pulls : f.Pulls
  · have elsewhere : ¬(e.Publishes ∧ e.device.domain = f.device.domain) :=
      fun ⟨publishes, home⟩ => free ⟨publishes, .inr pulls, home⟩
    rw [if_pos pulls, if_pos pulls, lookup_settle, if_neg elsewhere]
  · rw [if_neg pulls, if_neg pulls]

theorem settle_registry_comm (r : Registry) {e f : Edit} (free : ¬e.Disturbs f) :
    ((r.settle e).1.settle f).1 = ((r.settle f).1.settle e).1 := by
  simp only [settle_registry]
  by_cases first : e.Publishes <;> by_cases second : f.Publishes
  · have apart : e.device.domain ≠ f.device.domain :=
      fun home => free ⟨first, .inl second, home⟩
    simp [first, second, insert_comm _ apart]
  all_goals simp [first, second]

end Registry

namespace Moment

/-- One step publishes into a domain with which another one is concerned. -/
def Disturbs (m n : Moment) : Prop :=
  ∃ domain, m.PublishesInto domain ∧ (n.PublishesInto domain ∨ n.PullsFrom domain)

def Conflicts (m n : Moment) : Prop := m.Disturbs n ∨ n.Disturbs m

theorem Disturbs.same_domain {m n : Moment} (h : m.Disturbs n) : m.left.domain = n.left.domain := by
  obtain ⟨domain, ⟨_, _, _, home⟩, ⟨_, _, _, home'⟩ | ⟨_, _, home'⟩⟩ := h
  · exact home.trans home'.symm
  · exact home.trans home'.symm

theorem Conflicts.same_domain {m n : Moment} (h : m.Conflicts n) :
    m.left.domain = n.left.domain :=
  h.elim Disturbs.same_domain fun h => h.same_domain.symm

theorem disturbs_iff (m n : Moment) : m.Disturbs n ↔ m.edited.Disturbs n.edited := by
  simp only [Disturbs, publishesInto_iff, pullsFrom_iff, Edit.Disturbs]
  constructor
  · rintro ⟨domain, ⟨publishes, home⟩, ⟨concerned, home'⟩ | ⟨concerned, home'⟩⟩
    · exact ⟨publishes, .inl concerned, home.trans home'.symm⟩
    · exact ⟨publishes, .inr concerned, home.trans home'.symm⟩
  · rintro ⟨publishes, concerned | concerned, same⟩
    · exact ⟨_, ⟨publishes, same⟩, .inl ⟨concerned, rfl⟩⟩
    · exact ⟨_, ⟨publishes, same⟩, .inr ⟨concerned, rfl⟩⟩

theorem conflicts_iff (m n : Moment) :
    m.Conflicts n ↔ m.edited.Disturbs n.edited ∨ n.edited.Disturbs m.edited := by
  rw [Conflicts, disturbs_iff, disturbs_iff]

end Moment

namespace Service

theorem edited_after (s : Service) {step other : Step} (apart : step.device ≠ other.device) :
    Moment.edited ⟨(s.perform step).1, other⟩ = Moment.edited ⟨s, other⟩ := by
  rw [Moment.edited, Moment.edited, Moment.prior, Moment.prior, perform_state,
    device_store_of_ne _ _ apart.symm]

theorem perform_after (s : Service) {step other : Step} (apart : step.device ≠ other.device) :
    (s.perform step).1.perform other =
      let middle := s.registry.settle (Moment.edited ⟨s, step⟩)
      let last := middle.1.settle (Moment.edited ⟨s, other⟩)
      ((s.store step.device middle).store other.device last,
        (Moment.edited ⟨s, other⟩).reply last.2) := by
  have same := s.edited_after apart
  rw [perform_state] at same ⊢
  rw [perform_eq]
  simp only [Moment.edited, Moment.prior] at same ⊢
  rw [same, store_registry]

theorem store_store_comm (s : Service) {a b : String} (apart : a ≠ b)
    {p q p' q' : Registry × Device} (registry : q.1 = q'.1) (at_a : p.2 = q'.2)
    (at_b : q.2 = p'.2) : (s.store a p).store b q = (s.store b p').store a q' := by
  simp [store, registry, at_a, at_b, insert_comm _ apart]

end Service

/-- Two steps of different devices lead to the same state and get the same replies in either order,
unless they conflict; and whether they do does not depend on the order. -/
theorem independent_steps_commute (s : Service) (step other : Step)
    (apart : step.device ≠ other.device)
    (independent : ¬Moment.Conflicts ⟨s, step⟩ ⟨(s.perform step).1, other⟩) :
    let first := s.perform step
    let second := s.perform other
    (first.1.perform other).1 = (second.1.perform step).1 ∧
    (second.1.perform step).2 = first.2 ∧ (first.1.perform other).2 = second.2 ∧
    ¬Moment.Conflicts ⟨s, other⟩ ⟨second.1, step⟩ := by
  intro first second
  rw [Moment.conflicts_iff, s.edited_after apart, not_or] at independent
  obtain ⟨free, free'⟩ := independent
  have at_other := s.registry.settle_device_undisturbed free
  have at_step := s.registry.settle_device_undisturbed free'
  rw [s.perform_after apart, s.perform_after apart.symm]
  refine ⟨?_, ?_, ?_, ?_⟩
  · exact s.store_store_comm apart (s.registry.settle_registry_comm free) at_step.symm at_other
  · simp only [at_step, first, s.perform_eq step]
    rfl
  · simp only [at_other, second, s.perform_eq other]
    rfl
  · rw [Moment.conflicts_iff, s.edited_after apart.symm, not_or]
    exact ⟨free', free⟩

theorem independent_steps_commute_parting :
    let s := (Service.run {} excursion).1
    let publish : Step := .config "S1" (.defineVlans [30] none)
    let depart : Step := .config "C1" (.setDomain "annex")
    Moment.PublishesInto ⟨s, publish⟩ "lab" ∧ Moment.PullsFrom ⟨s, depart⟩ "annex" ∧
    ((s.perform publish).1.perform depart).1 = ((s.perform depart).1.perform publish).1 ∧
    ((s.perform depart).1.perform publish).2 = (s.perform publish).2 ∧
    ((s.perform publish).1.perform depart).2 = (s.perform depart).2 := by
  intro s publish depart
  have independent : ¬Moment.Conflicts ⟨s, publish⟩ ⟨(s.perform publish).1, depart⟩ :=
    fun conflict => absurd conflict.same_domain (by decide)
  obtain ⟨state, reply, reply', -⟩ :=
    independent_steps_commute s publish depart (by decide) independent
  exact ⟨by decide, by decide, state, reply, reply'⟩

end VlanTrunking
