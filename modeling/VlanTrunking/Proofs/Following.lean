import VlanTrunking.Proofs.Consultation
import VlanTrunking.Proofs.History

/-! What clients hold. A client has its data from the last occasion on which it consulted its
domain, as the record stood then: what is advertised later does not reach it before it asks again,
and nothing else that happens to it or to others changes what it holds. -/
namespace VlanTrunking

/-- The last of some moments in which a device consulted its domain, as a client or otherwise. -/
def lastConsultation? (id : String) (moments : List Moment) : Option Moment :=
  moments.findRev? fun m => m.step.device = id ∧ m.step.Consults

theorem aloof_of_lastConsultation? {id : String} {moments : List Moment}
    (never : lastConsultation? id moments = none) :
    ∀ m ∈ moments, m.step.device = id → ¬m.step.Consults := by
  simpa [lastConsultation?] using never

namespace Service

theorem unmoved_run {s : Service} {id : String} {steps : List Step}
    (never : lastConsultation? id (s.history steps) = none) :
    (s.device id).Unmoved ((s.run steps).1.device id) := by
  have aloof := aloof_of_lastConsultation? never
  apply holds_run (I := fun t => (s.device id).Unmoved (t.device id)) (.refl _)
  intro m hm before
  exact before.trans (Moment.unmoved_of_aloof (aloof m hm))

theorem unmoved_of_lastConsultation {s : Service} {id : String} {steps : List Step} {m : Moment}
    (last : lastConsultation? id (s.history steps) = some m) :
    m.step.device = id ∧ m.step.Consults ∧ m.left.Unmoved ((s.run steps).1.device id) := by
  have found : m.step.device = id ∧ m.step.Consults := by
    rw [lastConsultation?, List.findRev?_eq_find?_reverse] at last
    simpa using List.find?_some last
  obtain ⟨rfl, consults⟩ := found
  refine ⟨rfl, consults, ?_⟩
  apply holds_since_last (I := fun t => m.left.Unmoved (t.device m.step.device)) last (.refl _)
  intro n other before
  exact before.trans (Moment.unmoved_of_aloof (by simpa using other))

theorem exists_lastConsultation {id : String} {steps : List Step}
    (client : ((Service.run {} steps).1.device id).mode = .client) :
    ∃ m, lastConsultation? id (Service.history {} steps) = some m := by
  apply Option.ne_none_iff_exists'.mp
  intro never
  have server : (({} : Service).device id).mode = .server := by
    simp [device, Device.factory]
  rw [(unmoved_run never).mode, server] at client
  cases client

theorem record_of_client {id : String} {steps : List Step}
    (client : ((Service.run {} steps).1.device id).mode = .client) :
    ∃ m, lastConsultation? id (Service.history {} steps) = some m ∧
      let domain := ((Service.run {} steps).1.device id).domain
      ((Service.run {} steps).1.device id).record =
        (m.before.registry.lookup domain).getD (m.prior.carried domain) := by
  obtain ⟨m, last⟩ := exists_lastConsultation client
  obtain ⟨rfl, consults, unmoved⟩ := unmoved_of_lastConsultation last
  have became_client : m.left.mode = .client := unmoved.mode.symm.trans client
  have standing := unmoved.standing became_client
  simp only [Device.standing, Prod.mk.injEq] at standing
  obtain ⟨-, home, held⟩ := standing
  refine ⟨m, last, ?_⟩
  rw [held]
  exact Moment.left_of_pullsFrom ⟨consults, became_client, home.symm⟩

end Service

/-- A client holds what its domain advertised when the client last consulted it, or what it carried
there if nothing was advertised; only its own consultations change what it holds. -/
theorem client_holds_consulted_record (steps : List Step) (id : String) :
    let client := (Service.run {} steps).1.device id
    (client.mode = .client →
      ∃ m, lastConsultation? id (Service.history {} steps) = some m ∧
        (∀ record, m.before.registry.lookup client.domain = some record →
          client.revision = record.revision ∧ client.vlans = record.vlans) ∧
        (m.before.registry.lookup client.domain = none →
          client.vlans = m.prior.vlans ∧
          client.revision = if m.prior.domain = client.domain then m.prior.revision else 0)) ∧
    ∀ m : Moment, (m.before.device id).mode = .client →
      (m.step.device = id → ¬m.step.Consults) →
      (m.after.device id).revision = (m.before.device id).revision ∧
      (m.after.device id).vlans = (m.before.device id).vlans := by
  intro client
  constructor
  · intro follows
    obtain ⟨m, last, held⟩ := Service.record_of_client follows
    refine ⟨m, last, fun record known => ?_, fun unknown => ?_⟩
    · have taken : client.record = record := by
        rw [held, known, Option.getD_some]
      rw [← taken]
      exact ⟨rfl, rfl⟩
    · have kept : client.record = m.prior.carried client.domain := by
        rw [held, unknown, Option.getD_none]
      exact ⟨congrArg DomainRecord.vlans kept, congrArg DomainRecord.revision kept⟩
  · intro m before aloof
    have standing := (Moment.unmoved_of_aloof aloof).standing before
    simp only [Device.standing, Device.record, Prod.mk.injEq, DomainRecord.mk.injEq] at standing
    exact standing.2.2

def relocation : List Step :=
  [.config "C1" (.setDomain "lab"), .config "C1" (.defineVlans [10] none),
    .config "C1" (.setMode .client), .config "C1" (.setDomain "annex"),
    .config "C1" (.setPassword "key")]

theorem client_holds_consulted_record_late :
    let late := (Service.run {} excursion).1
    let moved := (Service.run {} relocation).1
    let refused : Moment := ⟨late, .config "C1" (.defineVlans [30] none)⟩
    (late.registry.lookup "lab" = some ⟨1, (∅ : VlanDatabase).insert 20 {}⟩ ∧
      (late.device "C1").revision = 1 ∧
      (late.device "C1").vlans = (∅ : VlanDatabase).insert 10 { name := some "users" }) ∧
    ((moved.device "C1").vlans = (∅ : VlanDatabase).insert 10 {} ∧
      (moved.device "C1").revision = 0) ∧
    (refused.after.device "C1").vlans = (late.device "C1").vlans := by
  intro late moved refused
  obtain ⟨of_late, of_any⟩ := client_holds_consulted_record excursion "C1"
  obtain ⟨of_moved, -⟩ := client_holds_consulted_record relocation "C1"
  refine ⟨⟨by decide, ?_⟩, ?_, (of_any refused (by decide) (by decide)).2⟩
  · obtain ⟨m, last, known, -⟩ := of_late (by decide)
    obtain rfl : ⟨(Service.run {} (excursion.take 6)).1, .config "C1" (.setDomain "lab")⟩ = m :=
      Option.some.inj ((by decide : _ = some _).trans last)
    exact known ⟨1, (∅ : VlanDatabase).insert 10 { name := some "users" }⟩ (by decide)
  · obtain ⟨m, last, -, unknown⟩ := of_moved (by decide)
    obtain rfl : ⟨(Service.run {} (relocation.take 3)).1, .config "C1" (.setDomain "annex")⟩ = m :=
      Option.some.inj ((by decide : _ = some _).trans last)
    exact unknown (by decide)

end VlanTrunking
